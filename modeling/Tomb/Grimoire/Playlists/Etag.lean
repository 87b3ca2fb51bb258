import Mathlib.Data.List.MinMax
import Std.Data.String.ToInt
import Tomb.Lib.Runs
import Tomb.Grimoire.Playlists.Items

/-! The tag of a playlist: the newest stamp of its row and of the live songs that it lists, in whole
seconds. -/
namespace Tomb.Grimoire.Playlists
open Tomb.Lib

structure SongColumns where
  title : String
  (trackNumber discNumber : Int)
  (duration bpm : Option Int)
  (trackArtist metadata lyrics : Option String)
  deriving DecidableEq

/-- The request's fields for the songs' rows. A year alone writes the rows without changing them. -/
structure SongEdit where
  title : Option String
  (trackNumber discNumber duration : Option Int)
  trackArtist : Option String
  (year bpm : Option Int)
  (lyrics metadata : Option String)

/-- The tables, with the columns of playlists and songs that the items do not depend on. -/
structure Catalog where
  tables : Tables
  title : String → String
  playlistUpdatedAt : String → Int
  song : String → SongColumns
  songUpdatedAt : String → Int

inductive CatalogOp where
  | items (playlistId : String) (op : PlaylistOp)
  | updatePlaylist (playlistId : String) (title : Option String)
  | updateSongs (songIds : List String) (edit : SongEdit)
  | deleteSong (songId : String)
  | loseSong (songId : String)

section Operations

variable (jsonPatch : String → String → String)

def SongEdit.updates (edit : SongEdit) : Bool :=
  edit.title.isSome || edit.trackNumber.isSome || edit.discNumber.isSome || edit.duration.isSome ||
    edit.trackArtist.isSome || edit.year.isSome || edit.bpm.isSome || edit.lyrics.isSome ||
    edit.metadata.isSome

def SongEdit.apply (edit : SongEdit) (song : SongColumns) : SongColumns where
  title := edit.title.getD song.title
  trackNumber := edit.trackNumber.getD song.trackNumber
  discNumber := edit.discNumber.getD song.discNumber
  duration := edit.duration.or song.duration
  bpm := edit.bpm.or song.bpm
  trackArtist := edit.trackArtist.or song.trackArtist
  metadata := match edit.metadata with
    | some patch => some (jsonPatch (song.metadata.getD "\x7b\x7d") patch)
    | none => song.metadata
  lyrics := edit.lyrics.or song.lyrics

/-- The operation comes to the update of the playlist's row, which only music's operations have. -/
def PlaylistOp.bumps (playlistId : String) (op : PlaylistOp) (t : Tables) : Bool :=
  match op with
  | .addSongs songIds => (addSongsToPlaylist playlistId songIds t).1.isOk
  | .removeSongs songIds => (removeSongsFromPlaylist playlistId songIds t).1.isOk
  | .setSongs songs => (setPlaylistSongs playlistId songs t).1.isOk
  | .moveSongs songIds newPosition => (updateSongsPosition playlistId songIds newPosition t).1.isOk
  | _ => false

namespace Catalog

variable (now : Int) (s : Catalog)

def bumpPlaylist (playlistId : String) : Catalog :=
  if (s.tables.playlistz.get playlistId).isSome then
    { s with playlistUpdatedAt := Function.update s.playlistUpdatedAt playlistId now }
  else s

def items (playlistId : String) (op : PlaylistOp) : Catalog :=
  let left := { s with tables := op.step playlistId s.tables }
  if op.bumps playlistId s.tables then left.bumpPlaylist now playlistId else left

def updatePlaylist (playlistId : String) (title : Option String) : Catalog :=
  if s.tables.hasPlaylist playlistId then
    { s with
      title := Function.update s.title playlistId (title.getD (s.title playlistId))
      playlistUpdatedAt := Function.update s.playlistUpdatedAt playlistId now }
  else s

def updateSongs (songIds : List String) (edit : SongEdit) : Catalog :=
  if edit.updates then
    { s with
      song := fun songId =>
        if songId ∈ songIds then edit.apply jsonPatch (s.song songId) else s.song songId
      songUpdatedAt := fun songId => if songId ∈ songIds then now else s.songUpdatedAt songId }
  else s

def loseSong (songId : String) : Catalog :=
  if s.tables.hasSong songId then
    { s with
      tables := { s.tables with
        songz := s.tables.songz.update (·.id = songId)
          (fun song => { song with deletedAt := some now }) fun _ => rfl }
      songUpdatedAt := Function.update s.songUpdatedAt songId now }
  else s

def deleteSong (songId : String) : Catalog :=
  if s.tables.hasSong songId then
    let lost := s.loseSong now songId
    { lost with tables := lost.tables.deleteItems fun item => item.ref = (.song, songId) }
  else s

end Catalog

@[grind =] def CatalogOp.step (now : Int) : CatalogOp → Catalog → Catalog
  | .items playlistId op, s => s.items now playlistId op
  | .updatePlaylist playlistId title, s => s.updatePlaylist now playlistId title
  | .updateSongs songIds edit, s => s.updateSongs jsonPatch now songIds edit
  | .deleteSong songId, s => s.deleteSong now songId
  | .loseSong songId, s => s.loseSong now songId

end Operations

namespace Catalog

variable (s : Catalog) (playlistId : String)

def listed : List String :=
  (((s.tables.items playlistId).filter fun item =>
      item.entityType = .song && s.tables.hasSong item.entityId).insertionSort
    fun a b => a.position ≤ b.position).map PlaylistItem.entityId

def shown : String × List (String × SongColumns) :=
  (s.title playlistId, (s.listed playlistId).map fun songId => (songId, s.song songId))

def newestStamp : Int :=
  max (s.playlistUpdatedAt playlistId)
    (((s.listed playlistId).map s.songUpdatedAt).max?.getD 0)

/-- The newest stamp never falls, and rises with each change of what is shown. -/
def Rises (playlistId : String) (s s' : Catalog) : Prop :=
  s.newestStamp playlistId ≤ s'.newestStamp playlistId ∧
    (s.shown playlistId ≠ s'.shown playlistId →
      s.newestStamp playlistId < s'.newestStamp playlistId)

variable {s playlistId}

theorem Rises.trans {a b c : Catalog} (first : Rises playlistId a b)
    (second : Rises playlistId b c) : Rises playlistId a c := by
  refine ⟨first.1.trans second.1, fun changed => ?_⟩
  by_cases same : a.shown playlistId = b.shown playlistId
  · exact lt_of_le_of_lt first.1 (second.2 (same ▸ changed))
  · exact lt_of_lt_of_le (first.2 same) second.1

variable {jsonPatch : String → String → String} {timed : Int × CatalogOp}

end Catalog

end Tomb.Grimoire.Playlists
