import Mathlib.Algebra.Ring.Nat
import Tomb.Lib.Table

/-! The hard deletion of what was deleted long ago, with its cascades from blobs to songs, from albums to
songs and from artists to albums and songs, and its dry run. A row that another table still refers to
cannot be deleted, and then nothing is. Tables that only follow the deleted rows are left out. -/
namespace Tomb.Grimoire.Maintenance.HardDelete
open Tomb.Lib

structure MediaBlob where
  id : String
  deletedAt : Option Int

structure Song where
  (id mediaBlobId : String)
  deletedAt : Option Int

structure Entity where
  id : String
  deletedAt : Option Int

structure Taxon where
  (id kindId : String)
  deletedAt : Option Int

structure TaxonKind where
  (id slug : String)

structure ArtistSong where
  (artistId songId : String)
  deriving DecidableEq

structure AlbumSong where
  (albumId songId : String)
  deriving DecidableEq

structure ArtistAlbum where
  (artistId albumId : String)
  deriving DecidableEq

structure AlbumTag where
  (albumId tagId : String)

structure AlbumTaxon where
  (albumId taxonId : String)

inductive EntityType where
  | song
  | album
  | artist
  | playlist
  | video
  deriving DecidableEq

structure PlaylistItem where
  playlistId : String
  entityType : EntityType
  entityId : String

structure PlayEvent where
  entityType : EntityType
  entityId : String
  playlistId : Option String

structure Mark where
  userId : String
  targetType : EntityType
  targetId : String

structure Image where
  (ownerId mediaBlobId : String)

structure RelatedArtist where
  sourceArtistId : String
  relatedArtistId : Option String

structure MusicPlayEvent where
  (songId albumId artistId playlistId : Option String)

@[ext] structure Library where
  mediaBlobz : Table MediaBlob.id
  songz : Table Song.id
  (albumz artistz playlistz tagz : Table Entity.id)
  taxonz : Table Taxon.id
  taxonKindz : Table TaxonKind.id
  artistSongz : List ArtistSong
  albumSongz : List AlbumSong
  artistAlbumz : List ArtistAlbum
  albumTagz : List AlbumTag
  albumTaxonz : List AlbumTaxon
  playlistItemz : List PlaylistItem
  (songImagez albumImagez artistImagez playlistImagez : List Image)
  playEventz : List PlayEvent
  (userFavoritez userRatingz : List Mark)
  /-- The songs of the table. Its rows do not give them up. -/
  radioPlayHistoryz : List String
  relatedArtistz : List RelatedArtist
  musicPlayEventz : List MusicPlayEvent

def old (cutoff : Int) (deletedAt : Option Int) : Bool := deletedAt.any (· < cutoff)

def oldIds (cutoff : Int) (table : Table Entity.id) : List String :=
  (table.rows.filter fun row => old cutoff row.deletedAt).map (·.id)

namespace Library

variable (lib : Library)

def blobGone (song : Song) : Bool :=
  match lib.mediaBlobz.get song.mediaBlobId with
  | none => true
  | some blob => blob.deletedAt.isSome

def cascadeFromBlobs (now : Int) : Library :=
  { lib with
    songz := lib.songz.update (fun song => lib.blobGone song && song.deletedAt.isNone)
      (fun song => { song with deletedAt := some now }) fun _ => rfl }

def oldSongIds (cutoff : Int) : List String :=
  (lib.songz.rows.filter fun song => old cutoff song.deletedAt).map (·.id)

def isGenre (taxon : Taxon) : Bool := (lib.taxonKindz.get taxon.kindId).any (·.slug = "genre")

def oldGenreIds (cutoff : Int) : List String :=
  (lib.taxonz.rows.filter fun taxon => lib.isGenre taxon && old cutoff taxon.deletedAt).map (·.id)

def dropSong (id : String) : Library :=
  { lib with
    artistSongz := lib.artistSongz.filter (·.songId ≠ id)
    albumSongz := lib.albumSongz.filter (·.songId ≠ id)
    playlistItemz := lib.playlistItemz.filter fun item =>
      !(item.entityType = .song && item.entityId = id)
    songImagez := lib.songImagez.filter (·.ownerId ≠ id)
    playEventz := lib.playEventz.filter fun event =>
      !(event.entityType = .song && event.entityId = id)
    userFavoritez := lib.userFavoritez.filter fun mark =>
      !(mark.targetType = .song && mark.targetId = id)
    userRatingz := lib.userRatingz.filter fun mark =>
      !(mark.targetType = .song && mark.targetId = id)
    songz := lib.songz.deleteWhere (·.id = id) }

def songHeld (id : String) : Bool :=
  lib.radioPlayHistoryz.contains id || lib.musicPlayEventz.any (·.songId = some id)

def deleteSong (id : String) : Option Library :=
  if (lib.songz.get id).isSome && lib.songHeld id then none else some (lib.dropSong id)

def deleteSongs (ids : List String) : Option Library := ids.foldlM deleteSong lib

def dropAlbum (id : String) : Library :=
  { lib with
    artistAlbumz := lib.artistAlbumz.filter (·.albumId ≠ id)
    albumTagz := lib.albumTagz.filter (·.albumId ≠ id)
    albumTaxonz := lib.albumTaxonz.filter (·.albumId ≠ id)
    albumImagez := lib.albumImagez.filter (·.ownerId ≠ id)
    userFavoritez := lib.userFavoritez.filter fun mark =>
      !(mark.targetType = .album && mark.targetId = id)
    userRatingz := lib.userRatingz.filter fun mark =>
      !(mark.targetType = .album && mark.targetId = id)
    albumSongz := lib.albumSongz.filter (·.albumId ≠ id)
    albumz := lib.albumz.deleteWhere (·.id = id) }

def albumHeld (id : String) : Bool := lib.musicPlayEventz.any (·.albumId = some id)

def deleteAlbumRow (id : String) : Option Library :=
  if (lib.albumz.get id).isSome && lib.albumHeld id then none else some (lib.dropAlbum id)

def albumSongIds (albumId : String) : List String :=
  (lib.albumSongz.filter (·.albumId = albumId)).map (·.songId)

def deleteAlbum (id : String) : Option Library := do
  let lib ← lib.deleteSongs (lib.albumSongIds id)
  lib.deleteAlbumRow id

def deleteAlbums (ids : List String) : Option Library := ids.foldlM deleteAlbum lib

def dropArtist (id : String) : Library :=
  { lib with
    artistImagez := lib.artistImagez.filter (·.ownerId ≠ id)
    userFavoritez := lib.userFavoritez.filter fun mark =>
      !(mark.targetType = .artist && mark.targetId = id)
    userRatingz := lib.userRatingz.filter fun mark =>
      !(mark.targetType = .artist && mark.targetId = id)
    artistSongz := lib.artistSongz.filter (·.artistId ≠ id)
    artistz := lib.artistz.deleteWhere (·.id = id) }

def artistHeld (id : String) : Bool :=
  lib.artistAlbumz.any (·.artistId = id) ||
    lib.relatedArtistz.any (fun row => row.sourceArtistId = id || row.relatedArtistId = some id) ||
      lib.musicPlayEventz.any (·.artistId = some id)

def deleteArtistRow (id : String) : Option Library :=
  if (lib.artistz.get id).isSome && lib.artistHeld id then none else some (lib.dropArtist id)

def artistAlbumIds (artistId : String) : List String :=
  (lib.artistAlbumz.filter (·.artistId = artistId)).map (·.albumId)

def artistSongIds (artistId : String) : List String :=
  (lib.artistSongz.filter (·.artistId = artistId)).map (·.songId)

def deleteArtist (id : String) : Option Library := do
  let lib ← lib.deleteAlbums (lib.artistAlbumIds id)
  let lib ← lib.deleteSongs (lib.artistSongIds id)
  lib.deleteArtistRow id

def dropPlaylist (id : String) : Library :=
  { lib with
    playlistItemz := lib.playlistItemz.filter (·.playlistId ≠ id)
    playlistImagez := lib.playlistImagez.filter (·.ownerId ≠ id)
    playEventz := lib.playEventz.filter (·.playlistId ≠ some id)
    userFavoritez := lib.userFavoritez.filter fun mark =>
      !(mark.targetType = .playlist && mark.targetId = id)
    playlistz := lib.playlistz.deleteWhere (·.id = id) }

def playlistHeld (id : String) : Bool := lib.musicPlayEventz.any (·.playlistId = some id)

def deletePlaylist (id : String) : Option Library :=
  if (lib.playlistz.get id).isSome && lib.playlistHeld id then none else some (lib.dropPlaylist id)

def dropTag (id : String) : Library :=
  { lib with
    albumTagz := lib.albumTagz.filter (·.tagId ≠ id)
    tagz := lib.tagz.deleteWhere (·.id = id) }

def dropGenre (id : String) : Library :=
  { lib with
    albumTaxonz := lib.albumTaxonz.filter (·.taxonId ≠ id)
    taxonz := lib.taxonz.deleteWhere (·.id = id) }

end Library

inductive Kind where
  | song
  | album
  | artist
  | playlist
  | tag
  | genre
  deriving DecidableEq

structure HardDeleteSummary where
  deleted : Kind → Nat
  cutoffTimestamp : Int

def HardDeleteSummary.totalRecordsDeleted (summary : HardDeleteSummary) : Nat :=
  (summary.deleted .song + summary.deleted .playlist + summary.deleted .artist +
    summary.deleted .album + summary.deleted .tag + summary.deleted .genre) % 2 ^ 32

/-- What a run is given: the time that it begins at, and the seconds until it marks the songs of
deleted blobs. -/
structure Call where
  time : Int
  (elapsed retentionDays : Nat)

def Call.cutoff (call : Call) : Int := call.time - call.retentionDays * (24 * 60 * 60)

@[grind =] def Library.ids (lib : Library) : Kind → List String
  | .song => lib.songz.rows.map (·.id)
  | .album => lib.albumz.rows.map (·.id)
  | .artist => lib.artistz.rows.map (·.id)
  | .playlist => lib.playlistz.rows.map (·.id)
  | .tag => lib.tagz.rows.map (·.id)
  | .genre => lib.taxonz.rows.map (·.id)

@[grind =] def Library.oldIds (lib : Library) (cutoff : Int) : Kind → List String
  | .song => lib.oldSongIds cutoff
  | .album => HardDelete.oldIds cutoff lib.albumz
  | .artist => HardDelete.oldIds cutoff lib.artistz
  | .playlist => HardDelete.oldIds cutoff lib.playlistz
  | .tag => HardDelete.oldIds cutoff lib.tagz
  | .genre => lib.oldGenreIds cutoff

def dryRunCount (lib : Library) (call : Call) : HardDeleteSummary :=
  ⟨fun kind => (lib.oldIds call.cutoff kind).length % 2 ^ 32, call.cutoff⟩

def hardDeleteOldRecords (lib : Library) (call : Call) : Option (HardDeleteSummary × Library) := do
  let cutoff := call.cutoff
  let lib := lib.cascadeFromBlobs (call.time + call.elapsed)
  let songIds := lib.oldSongIds cutoff
  let lib ← lib.deleteSongs songIds
  let albumIds := oldIds cutoff lib.albumz
  let lib ← lib.deleteAlbums albumIds
  let artistIds := oldIds cutoff lib.artistz
  let lib ← artistIds.foldlM Library.deleteArtist lib
  let playlistIds := oldIds cutoff lib.playlistz
  let lib ← playlistIds.foldlM Library.deletePlaylist lib
  let tagIds := oldIds cutoff lib.tagz
  let lib := tagIds.foldl Library.dropTag lib
  let genreIds := lib.oldGenreIds cutoff
  let lib := genreIds.foldl Library.dropGenre lib
  let deleted
    | .song => songIds.length
    | .album => albumIds.length
    | .artist => artistIds.length
    | .playlist => playlistIds.length
    | .tag => tagIds.length
    | .genre => genreIds.length
  some (⟨fun kind => deleted kind % 2 ^ 32, cutoff⟩, lib)

def after (lib : Library) (call : Call) : Library :=
  match hardDeleteOldRecords lib call with
  | none => lib
  | some (_, lib) => lib

end Tomb.Grimoire.Maintenance.HardDelete
