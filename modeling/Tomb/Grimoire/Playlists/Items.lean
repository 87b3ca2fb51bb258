import Mathlib.Data.List.Sort
import Tomb.Lib.Table

/-! Playlists and their items: the tables with the triggers that number the items, and the
operations of both modules that write them. An error is the message of a failure. -/
namespace Tomb.Grimoire.Playlists
open Tomb.Lib

inductive TaggableEntity where
  | song
  | album
  | artist
  | playlist
  | taxon
  | video
  | videoSeries
  | videoSeason
  deriving DecidableEq

structure Playlist where
  id : String
  deletedAt : Option Int

structure Song where
  id : String
  deletedAt : Option Int

structure PlaylistItem where
  playlistId : String
  entityType : TaggableEntity
  entityId : String
  position : Int
  addedBy : Option String

abbrev Ref := TaggableEntity × String

def PlaylistItem.ref (item : PlaylistItem) : Ref := (item.entityType, item.entityId)

@[grind =] def PlaylistItem.key (item : PlaylistItem) : String × Ref := (item.playlistId, item.ref)

def PlaylistItem.moveTo (position : Int) (item : PlaylistItem) : PlaylistItem :=
  { item with position := position }

structure Tables where
  playlistz : Table Playlist.id
  songz : Table Song.id
  playlistItemz : Table PlaylistItem.key

inductive Constraint where
  | unique
  | foreignKey

namespace Tables

variable (t : Tables) (playlistId : String)

def items : List PlaylistItem := t.playlistItemz.select fun item => item.playlistId = playlistId

def hasPlaylist : Bool :=
  match t.playlistz.get playlistId with
  | some playlist => playlist.deletedAt.isNone
  | none => false

def hasSong (songId : String) : Bool :=
  match t.songz.get songId with
  | some song => song.deletedAt.isNone
  | none => false

def greatest : Int := ((t.items playlistId).map PlaylistItem.position).max?.getD 0

def reposition (p : PlaylistItem → Bool) (f : Int → Int) : Tables where
  playlistz := t.playlistz
  songz := t.songz
  playlistItemz := t.playlistItemz.update p (fun item => item.moveTo (f item.position)) fun _ => rfl

def autoAppend (new : PlaylistItem) : Tables :=
  if new.position = 0 then
    t.reposition (fun item => item.key = new.key) fun _ => t.greatest new.playlistId + 1
  else t

@[grind =] def insertItem (item : PlaylistItem) : Except Constraint Tables :=
  match t.playlistItemz.insert item with
  | none => .error .unique
  | some playlistItemz =>
    if (t.playlistz.get item.playlistId).isSome then
      .ok (autoAppend { t with playlistItemz := playlistItemz } item)
    else .error .foreignKey

def closeGaps (old : PlaylistItem) : Tables :=
  t.reposition (fun item => item.playlistId = old.playlistId && old.position < item.position)
    (· - 1)

/-- Delete the row of a key, if there is one; the trigger sees the row as it is by then. -/
def deleteItem (key : String × Ref) : Tables :=
  match t.playlistItemz.get key with
  | none => t
  | some old =>
    closeGaps { t with playlistItemz := t.playlistItemz.deleteWhere fun item => item.key = key } old

def deleteItems (p : PlaylistItem → Bool) : Tables :=
  ((t.playlistItemz.select p).map PlaylistItem.key).foldl deleteItem t

def listedSongs : List String :=
  if t.hasPlaylist playlistId then
    (((t.items playlistId).filter fun item =>
        item.entityType = .song && (t.songz.get item.entityId).isSome).mergeSort
      fun a b => a.position ≤ b.position).map PlaylistItem.entityId
  else []

end Tables

/-! Songs of a playlist. -/

def addSongs (playlistId : String) : List String → Tables → Except String Unit × Tables
  | [], t => (.ok (), t)
  | songId :: rest, t =>
    if t.hasSong songId then
      match t.insertItem ⟨playlistId, .song, songId, 0, none⟩ with
      | .ok t => addSongs playlistId rest t
      | .error .unique => (.error "item already in playlist", t)
      | .error .foreignKey => (.error "Failed to add song to playlist", t)
    else (.error "Song not found", t)

def addSongsToPlaylist (playlistId : String) (songIds : List String) (t : Tables) :
    Except String Unit × Tables :=
  if t.hasPlaylist playlistId then
    let songsToAdd := songIds.filter fun songId =>
      !(t.items playlistId).any fun item => item.ref = (.song, songId)
    if songsToAdd.isEmpty then (.error "all songs are already in the playlist", t)
    else addSongs playlistId songsToAdd t
  else (.error "Playlist not found", t)

def removeSongsFromPlaylist (playlistId : String) (songIds : List String) (t : Tables) :
    Except String Unit × Tables :=
  if t.hasPlaylist playlistId then
    (.ok (), songIds.foldl (fun t songId => t.deleteItem (playlistId, .song, songId)) t)
  else (.error "Playlist not found", t)

@[grind =] def insertOrSkip (t : Tables) (item : PlaylistItem) : Tables :=
  match t.insertItem item with
  | .ok t => t
  | .error _ => t

def setPlaylistSongs (playlistId : String) (songs : List (String × Int)) (t : Tables) :
    Except String Unit × Tables :=
  if t.hasPlaylist playlistId then
    (.ok (), (songs.map fun song => ⟨playlistId, .song, song.1, song.2, none⟩).foldl insertOrSkip
      (t.deleteItems fun item => item.playlistId = playlistId && item.entityType = .song))
  else (.error "playlist not found", t)

/-- Where the moved songs go among the others: `(new_position - 1) as usize`, at most behind the
last; a negative number is a huge one then. -/
def insertAt (newPosition : Int) (others : Nat) : Nat :=
  if newPosition < 1 then others else min (newPosition - 1).toNat others

def newOrder (allSongs songIds : List String) (newPosition : Int) : List String :=
  let otherSongs := allSongs.filter fun songId => songId ∉ songIds
  let at_ := insertAt newPosition otherSongs.length
  otherSongs.take at_ ++ songIds ++ otherSongs.drop at_

def assignPositions (playlistId : String) (refs : List Ref) (t : Tables) : Tables :=
  refs.zipIdx.foldl (fun t entry =>
    t.reposition (fun item => item.key = (playlistId, entry.1)) fun _ => entry.2 + 1) t

def updateSongsPosition (playlistId : String) (songIds : List String) (newPosition : Int)
    (t : Tables) : Except String Unit × Tables :=
  let order := newOrder (t.listedSongs playlistId) songIds newPosition
  (.ok (), assignPositions playlistId (order.map (Prod.mk .song))
    (t.reposition (fun item => item.playlistId = playlistId && item.entityType = .song) (- ·)))

/-! Items of any type. -/

def setPlaylistItems (playlistId : String) (orderedRefs : List Ref) (addedBy : Option String)
    (t : Tables) : Except String Unit × Tables :=
  (.ok (), (orderedRefs.zipIdx.map fun entry =>
      ⟨playlistId, entry.1.1, entry.1.2, entry.2 + 1, addedBy⟩).foldl insertOrSkip
    (t.deleteItems fun item => item.playlistId = playlistId))

def addPlaylistItem (playlistId : String) (ref : Ref) (position : Option Int)
    (addedBy : Option String) (t : Tables) : Except String PlaylistItem × Tables :=
  match t.insertItem ⟨playlistId, ref.1, ref.2, position.getD 0, addedBy⟩ with
  | .error .unique => (.error "item already in playlist", t)
  | .error .foreignKey => (.error "Failed to add playlist item", t)
  | .ok t =>
    match t.playlistItemz.get (playlistId, ref) with
    | some item => (.ok item, t)
    | none => (.error "Failed to read back playlist item", t)

def removePlaylistItem (playlistId : String) (ref : Ref) (t : Tables) :
    Except String Unit × Tables :=
  (.ok (), t.deleteItem (playlistId, ref))

/-- The references that are inserted, those that are in the playlist being passed over. -/
def appendItems (playlistId : String) (addedBy : Option String) :
    List Ref → Tables → Except Constraint (List Ref × Tables)
  | [], t => .ok ([], t)
  | ref :: rest, t =>
    match t.insertItem ⟨playlistId, ref.1, ref.2, 0, addedBy⟩ with
    | .error .unique => appendItems playlistId addedBy rest t
    | .error .foreignKey => .error .foreignKey
    | .ok t => (appendItems playlistId addedBy rest t).map fun later => (ref :: later.1, later.2)

def addPlaylistItems (playlistId : String) (refs : List Ref) (addedBy : Option String)
    (t : Tables) : Except String (List PlaylistItem) × Tables :=
  match appendItems playlistId addedBy refs t with
  | .error _ => (.error "Failed to add playlist item", t)
  | .ok (inserted, t) =>
    match inserted.mapM fun ref => t.playlistItemz.get (playlistId, ref) with
    | some items => (.ok items, t)
    | none => (.error "Failed to read back playlist item", t)

def removePlaylistItems (playlistId : String) (refs : List Ref) (t : Tables) :
    Except String Unit × Tables :=
  (.ok (), refs.foldl (fun t ref => t.deleteItem (playlistId, ref)) t)

def reorderPlaylistItems (playlistId : String) (orderedRefs : List Ref) (t : Tables) :
    Except String Unit × Tables :=
  (.ok (), assignPositions playlistId orderedRefs t)

inductive PlaylistOp where
  | addSongs (songIds : List String)
  | removeSongs (songIds : List String)
  | setSongs (songs : List (String × Int))
  | moveSongs (songIds : List String) (newPosition : Int)
  | setItems (orderedRefs : List Ref) (addedBy : Option String)
  | addItem (ref : Ref) (position : Option Int) (addedBy : Option String)
  | addItems (refs : List Ref) (addedBy : Option String)
  | removeItem (ref : Ref)
  | removeItems (refs : List Ref)
  | reorder (orderedRefs : List Ref)

def PlaylistOp.step (playlistId : String) (op : PlaylistOp) (t : Tables) : Tables :=
  match op with
  | .addSongs songIds => (addSongsToPlaylist playlistId songIds t).2
  | .removeSongs songIds => (removeSongsFromPlaylist playlistId songIds t).2
  | .setSongs songs => (setPlaylistSongs playlistId songs t).2
  | .moveSongs songIds newPosition => (updateSongsPosition playlistId songIds newPosition t).2
  | .setItems orderedRefs addedBy => (setPlaylistItems playlistId orderedRefs addedBy t).2
  | .addItem ref position addedBy => (addPlaylistItem playlistId ref position addedBy t).2
  | .addItems refs addedBy => (addPlaylistItems playlistId refs addedBy t).2
  | .removeItem ref => (removePlaylistItem playlistId ref t).2
  | .removeItems refs => (removePlaylistItems playlistId refs t).2
  | .reorder orderedRefs => (reorderPlaylistItems playlistId orderedRefs t).2

end Tomb.Grimoire.Playlists
