import Mathlib.Data.List.Basic

/-! The rows of the library that the cleanups read and what deleting one of them takes along. Rows
that are marked as deleted are rows like the others here: no cleanup reads the mark. -/
namespace Tomb.Grimoire.Maintenance

structure Named where
  (id name : String)

structure TaxonKind where
  (id slug : String)

structure Taxon where
  (id kindId label : String)

structure VideoSeason where
  (id seriesId : String)

structure Video where
  id : String
  (seriesId seasonId artistId albumId : Option String)
  deriving DecidableEq

structure ArtistAlbum where
  (artistId albumId : String)

structure ArtistSong where
  (artistId songId : String)

structure AlbumSong where
  (albumId songId : String)

structure AlbumTag where
  (albumId tagId : String)

structure AlbumTaxon where
  (albumId taxonId : String)

inductive VideoEntityType where
  | video
  | videoSeries
  | videoSeason
  deriving DecidableEq

structure EntityTag where
  entityType : VideoEntityType
  (entityId tagId : String)
  deriving DecidableEq

structure EntityTaxon where
  entityType : VideoEntityType
  (entityId taxonId : String)
  deriving DecidableEq

structure RelatedArtist where
  sourceArtistId : String
  relatedArtistId : Option String

structure MusicPlayEvent where
  (albumId artistId : Option String)

structure Library where
  tagz : List Named := []
  taxonKindz : List TaxonKind := []
  taxonz : List Taxon := []
  artistz : List Named := []
  albumz : List Named := []
  videoSeriez : List Named := []
  videoSeasonz : List VideoSeason := []
  videoz : List Video := []
  artistAlbumz : List ArtistAlbum := []
  artistSongz : List ArtistSong := []
  albumSongz : List AlbumSong := []
  albumTagz : List AlbumTag := []
  albumTaxonz : List AlbumTaxon := []
  entityTagz : List EntityTag := []
  entityTaxonz : List EntityTaxon := []
  /-- The artists and the albums that an image is attached to. -/
  artistImagez : List String := []
  albumImagez : List String := []
  relatedArtistz : List RelatedArtist := []
  musicPlayEventz : List MusicPlayEvent := []

namespace Library

variable (lib : Library) (id : String)

def hasEntity : VideoEntityType → String → Bool
  | .video, id => lib.videoz.any (·.id = id)
  | .videoSeries, id => lib.videoSeriez.any (·.id = id)
  | .videoSeason, id => lib.videoSeasonz.any (·.id = id)

def deleteTag : Option Library :=
  if lib.albumTagz.any (·.tagId = id) then none
  else some { lib with
    tagz := lib.tagz.filter (·.id ≠ id)
    entityTagz := lib.entityTagz.filter (·.tagId ≠ id) }

def deleteTaxon : Option Library :=
  some { lib with
    taxonz := lib.taxonz.filter (·.id ≠ id)
    albumTaxonz := lib.albumTaxonz.filter (·.taxonId ≠ id)
    entityTaxonz := lib.entityTaxonz.filter (·.taxonId ≠ id) }

def artistRefused : Bool :=
  lib.artistAlbumz.any (·.artistId = id) || lib.artistImagez.any (· = id) ||
    lib.relatedArtistz.any (fun row => row.sourceArtistId = id || row.relatedArtistId = some id) ||
    lib.musicPlayEventz.any (·.artistId = some id)

def deleteArtist : Option Library :=
  if lib.artistRefused id then none
  else some { lib with
    artistz := lib.artistz.filter (·.id ≠ id)
    artistSongz := lib.artistSongz.filter (·.artistId ≠ id)
    videoz := lib.videoz.map fun video =>
      if video.artistId = some id then { video with artistId := none } else video }

def albumRefused : Bool :=
  lib.artistAlbumz.any (·.albumId = id) || lib.albumTagz.any (·.albumId = id) ||
    lib.albumImagez.any (· = id) || lib.musicPlayEventz.any (·.albumId = some id)

def deleteAlbum : Option Library :=
  if lib.albumRefused id then none
  else some { lib with
    albumz := lib.albumz.filter (·.id ≠ id)
    albumSongz := lib.albumSongz.filter (·.albumId ≠ id)
    albumTaxonz := lib.albumTaxonz.filter (·.albumId ≠ id)
    videoz := lib.videoz.map fun video =>
      if video.albumId = some id then { video with albumId := none } else video }

def seasonDeleted (seasonId : String) : Bool :=
  lib.videoSeasonz.any fun season => season.id = seasonId && season.seriesId = id

def withoutSeries (video : Video) : Video :=
  { video with
    seriesId := if video.seriesId = some id then none else video.seriesId
    seasonId := if video.seasonId.any (lib.seasonDeleted id) then none else video.seasonId }

def seriesRefused : Bool :=
  lib.videoz.any fun video =>
    video.seriesId = some id && (lib.withoutSeries id video).seasonId.isSome

def deleteSeries : Option Library :=
  if lib.seriesRefused id then none
  else some { lib with
    videoSeriez := lib.videoSeriez.filter (·.id ≠ id)
    videoSeasonz := lib.videoSeasonz.filter (·.seriesId ≠ id)
    videoz := lib.videoz.map (lib.withoutSeries id) }

end Library

end Tomb.Grimoire.Maintenance
