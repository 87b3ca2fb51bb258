import Mathlib.Data.List.Rotate
import Tomb.Lib.Runs
import Tomb.Lib.Entries
import Tomb.Lib.Table
import Tomb.Lib.Text

/-! The rows that an import of songs reads and writes. -/
namespace Tomb.Grimoire.Music.Crud
open Lib

structure Artist where
  (id name : String)
  deleted : Bool
deriving DecidableEq

structure Album where
  (id title albumType : String)
  deleted : Bool

structure Song where
  (id mediaBlobId title : String)
  (trackNumber discNumber : Int)
  duration : Option Int
  deleted : Bool
deriving DecidableEq

/-- The library. A row of `artist_albumz` names an album, by its foreign key. -/
structure Library where
  artists : Table Artist.id
  albums : Table Album.id
  songs : Table Song.id
  (artistSongz albumSongz artistAlbumz : List (String × String))
  known : ∀ link ∈ artistAlbumz, ∃ album ∈ albums, album.id = link.2

namespace Library

def empty : Library := ⟨∅, ∅, ∅, [], [], [], nofun⟩

def limitOne {ρ : Type} (pick : Nat) (rows : List ρ) : Option ρ := (rows.rotate pick).head?

theorem limitOne_eq_some {ρ : Type} {pick : Nat} {rows : List ρ} {row : ρ}
    (found : limitOne pick rows = some row) : row ∈ rows :=
  List.mem_rotate.mp (List.mem_of_head? found)

variable (lib : Library)

def artistsNamed (name : String) : List Artist :=
  lib.artists.select fun artist => Sqlite.lower artist.name = Sqlite.lower name && !artist.deleted

def albumsTitled (artistId title : String) : List Album :=
  lib.albums.select fun album => Sqlite.lower album.title = Sqlite.lower title &&
    decide ((artistId, album.id) ∈ lib.artistAlbumz) && !album.deleted

def insertArtist (row : Artist) : Option Library :=
  (lib.artists.insert row).map fun artists => { lib with artists }

def insertAlbum (row : Album) : Option Library :=
  match done : lib.albums.insert row with
  | none => none
  | some albums => some { lib with
      albums
      known := fun link listed => by
        obtain ⟨album, there, same⟩ := lib.known link listed
        exact ⟨album, (Table.insert_eq_some _ _ _ done album).mpr (.inl there), same⟩ }

def setAlbumType (id albumType : String) : Library := { lib with
  albums := lib.albums.update (fun album => album.id = id)
    (fun album => { album with albumType }) fun _ => rfl
  known := fun link listed => by
    obtain ⟨album, there, same⟩ := lib.known link listed
    refine ⟨_, (Table.mem_update ..).mpr ⟨album, there, rfl⟩, ?_⟩
    split
    · exact same
    · exact same }

inductive Inserted
  | row (lib : Library)
  | duplicate
  | failed

def insertSong (row : Song) : Inserted :=
  if lib.songs.rows.any fun song => song.mediaBlobId = row.mediaBlobId then .duplicate
  else match lib.songs.insert row with
    | none => .failed
    | some songs => .row { lib with songs }

def insertLink (links : List (String × String)) (link : String × String) :
    List (String × String) :=
  if link ∈ links then links else links ++ [link]

theorem mem_insertLink {links : List (String × String)} {link other : String × String} :
    other ∈ insertLink links link ↔ other ∈ links ∨ other = link := by
  unfold insertLink
  split
  · rename_i present
    constructor
    · exact .inl
    · rintro (before | rfl)
      · exact before
      · exact present
  · rw [List.mem_append, List.mem_singleton]

def hasArtist (id : String) : Bool := lib.artists.rows.any fun artist => artist.id = id

def hasAlbum (id : String) : Bool := lib.albums.rows.any fun album => album.id = id

def hasSong (id : String) : Bool := lib.songs.rows.any fun song => song.id = id

def createArtistSongRelationship (artistId songId : String) : Option Library :=
  if lib.hasArtist artistId && lib.hasSong songId then
    some { lib with artistSongz := insertLink lib.artistSongz (artistId, songId) }
  else none

def createAlbumSongRelationship (albumId songId : String) : Option Library :=
  if lib.hasAlbum albumId && lib.hasSong songId then
    some { lib with albumSongz := insertLink lib.albumSongz (albumId, songId) }
  else none

theorem hasAlbum_iff {id : String} :
    lib.hasAlbum id = true ↔ ∃ album ∈ lib.albums, album.id = id := by
  simp [hasAlbum, Table.mem_def]

def createArtistAlbumRelationship (artistId albumId : String) : Option Library :=
  if present : (lib.hasArtist artistId && lib.hasAlbum albumId) = true then
    some { lib with
      artistAlbumz := insertLink lib.artistAlbumz (artistId, albumId)
      known := fun link listed => by
        rcases mem_insertLink.mp listed with before | rfl
        · exact lib.known link before
        · exact lib.hasAlbum_iff.mp (Bool.and_eq_true_iff.mp present).2 }
  else none

end Library

end Tomb.Grimoire.Music.Crud
