import Mathlib.Algebra.Group.Int.Defs
import Mathlib.Data.List.Dedup
import Mathlib.Data.List.Sort
import Tomb.Lib.Table
import Tomb.Lib.Text
import Tomb.Grimoire.Radio.Requests

/-! What a station plays next. Its filter rows resolve to songs and to videos, each for itself; the
picker draws from both in shuffle mode, and plays albums or series in order in album mode. Which
items one filter row matches is left open, and so is every random choice. -/
namespace Tomb.Grimoire.Radio
open Tomb.Lib

/-- A song or a video with its blob: the album or series that it belongs to, its place in there, and
if the blob's sources are offline. -/
structure LibraryItem where
  id : String
  groupId : Option String
  (section_ number : Option Int)
  (hasLocalPath deleted blobDeleted offline : Bool)

inductive FilterType where
  | artist
  | album
  | taxon
  | tag
  | track
  | playlist
  | video
  | videoSeries
  | favorite
  | allVideos
  | ratingGte
  | ratingLte
  | playCountGte
  | playCountLte
  | durationGte
  | durationLte
  | addedDaysGte
  | addedDaysLte
  deriving DecidableEq

inductive FilterMode where
  | include_
  | exclude_
  deriving DecidableEq

structure FilterRow where
  filterType : FilterType
  mode : FilterMode
  value : String

inductive ContentMode where
  | audioOnly
  | audioOrVideo
  | videoOnly
  deriving DecidableEq

inductive PlayMode where
  | album
  | shuffle
  deriving DecidableEq

structure Station where
  contentMode : ContentMode
  playMode : PlayMode
  acceptsRequests : Bool

/-- The songs and the videos, and the ids that a filter row matches among them. -/
structure Library where
  items : RadioItemKind → Table LibraryItem.id
  clauseIds : RadioItemKind → FilterRow → List String

structure RadioTrack where
  kind : RadioItemKind
  id : String
  requested : Bool

inductive PickError where
  | noPlayable (kind : RadioItemKind)
  | noneInLibrary (kind : RadioItemKind)
  | noGroupCandidates (kind : RadioItemKind)
  | noGroups (kind : RadioItemKind)
  | notPlayable (kind : RadioItemKind) (id : String)
  | noCandidates

def recentRepeatWindow : Nat := 8

def LibraryItem.playable (item : LibraryItem) : Bool :=
  item.hasLocalPath && !item.deleted && !item.blobDeleted

def FilterType.isVideoOnly : FilterType → Bool
  | .video | .videoSeries | .allVideos => true
  | _ => false

def FilterType.isCrossDomain : FilterType → Bool
  | .taxon | .tag | .favorite | .ratingGte | .ratingLte | .playCountGte | .playCountLte
  | .durationGte | .durationLte | .addedDaysGte | .addedDaysLte => true
  | _ => false

def ContentMode.resolves : ContentMode → RadioItemKind → Bool
  | mode, .song => mode ≠ .videoOnly
  | mode, .video => mode ≠ .audioOnly

def domainFilters (filters : List FilterRow) : RadioItemKind → List FilterRow
  | .song => filters.filter fun row => !row.filterType.isVideoOnly
  | .video => filters.filter fun row => row.filterType.isVideoOnly || row.filterType.isCrossDomain

def choose {α : Type} (pick : Nat) (xs : List α) : Option α := xs[pick % xs.length]?

namespace Library

variable (lib : Library)

def allPlayableIds (kind : RadioItemKind) : List String :=
  ((lib.items kind).rows.filter LibraryItem.playable).map LibraryItem.id

def availableIds (kind : RadioItemKind) : List String :=
  ((lib.items kind).rows.filter fun item => item.playable && !item.offline).map LibraryItem.id

def groupIds (kind : RadioItemKind) (rows : List FilterRow) (filterType : FilterType) :
    List String :=
  (rows.filter (·.filterType = filterType)).flatMap (lib.clauseIds kind)

def includedIds (kind : RadioItemKind) (rows : List FilterRow) : List String :=
  match (rows.map FilterRow.filterType).dedup with
  | [] => []
  | first :: rest =>
    rest.foldl (fun acc next => acc.filter (· ∈ lib.groupIds kind rows next))
      (lib.groupIds kind rows first)

def resolveDomain (kind : RadioItemKind) (rows : List FilterRow) : List String :=
  if rows.isEmpty then []
  else
    let includes := rows.filter (·.mode = .include_)
    let excludes := rows.filter (·.mode = .exclude_)
    let result := if includes.isEmpty then lib.allPlayableIds kind else lib.includedIds kind includes
    excludes.foldl (fun result clause => result.filter (· ∉ lib.clauseIds kind clause)) result

def resolve (mode : ContentMode) (filters : List FilterRow) (kind : RadioItemKind) : List String :=
  if mode.resolves kind then lib.resolveDomain kind (domainFilters filters kind) else []

def isOffline (kind : RadioItemKind) (id : String) : Bool :=
  ((lib.items kind).get id).any LibraryItem.offline

def retainAvailable (kind : RadioItemKind) (ids : List String) : List String :=
  ids.filter fun id => !lib.isOffline kind id

def fetchTrack (kind : RadioItemKind) (id : String) : Except PickError RadioTrack :=
  match (lib.items kind).get id with
  | some item =>
    if item.playable && !item.offline then .ok ⟨kind, id, false⟩ else .error (.notPlayable kind id)
  | none => .error (.notPlayable kind id)

def pickRandom (kind : RadioItemKind) (pick : Nat) : Except PickError RadioTrack :=
  match kind with
  | .song =>
    match choose pick (lib.availableIds .song) with
    | some id => .ok ⟨.song, id, false⟩
    | none => .error (.noPlayable .song)
  | .video =>
    match choose pick (lib.retainAvailable .video (lib.allPlayableIds .video)) with
    | some id => lib.fetchTrack .video id
    | none => .error (.noPlayable .video)

end Library

/-! Album mode: albums or series, in the order of their tracks or episodes. -/

def groupKey (item : LibraryItem) : String := item.groupId.getD ("__single__:" ++ item.id)

/-- The place within a group; a song without a number is a first one, a video the last one. -/
def place (kind : RadioItemKind) (n : Option Int) : Int :=
  n.getD (match kind with
    | .song => 1
    | .video => 2 ^ 63 - 1)

def comesBefore (kind : RadioItemKind) (a b : LibraryItem) : Bool :=
  if place kind a.section_ ≠ place kind b.section_ then place kind a.section_ < place kind b.section_
  else if place kind a.number ≠ place kind b.number then place kind a.number < place kind b.number
  else a.id ≤ b.id

def groupTracks (kind : RadioItemKind) (rows : List LibraryItem) (key : String) : List String :=
  ((rows.filter (groupKey · = key)).insertionSort (comesBefore kind · · = true)).map LibraryItem.id

def nextInSameGroup (kind : RadioItemKind) (rows : List LibraryItem) (last : Option String) :
    Option String := do
  let last ← last
  let row ← rows.find? (·.id = last)
  let tracks := groupTracks kind rows (groupKey row)
  tracks[tracks.idxOf last + 1]?

def newGroups (rows : List LibraryItem) (last : Option String) : List String :=
  let keys := (rows.map groupKey).dedup
  match last.bind fun last => rows.find? (·.id = last) with
  | some row => if 1 < keys.length then keys.filter (· ≠ groupKey row) else keys
  | none => keys

def Library.pickGroupMode (lib : Library) (kind : RadioItemKind) (candidates : List String)
    (last : Option String) (forceNew : Bool) (pick : Nat) : Except PickError String :=
  let rows := (lib.items kind).rows.filter fun item => item.id ∈ candidates && !item.deleted
  if rows.isEmpty then .error (.noGroupCandidates kind)
  else match if forceNew then none else nextInSameGroup kind rows last with
    | some next => .ok next
    | none =>
      match choose pick (newGroups rows last) with
      | none => .error (.noGroups kind)
      | some key =>
        match (groupTracks kind rows key).head? with
        | some first => .ok first
        | none => .error (.noGroups kind)

/-- The item that was played last: the anchor, or the newest of the station's history. -/
def resolveLastSongId (anchor : Option String) (history : List String) : Option String :=
  match anchor.map Text.trim with
  | some anchor => if anchor = "" then history.head? else some anchor
  | none => history.head?

namespace Library

variable (lib : Library)

/-- The first request that fits the station and can be fetched; those before it are dropped. -/
def serveRequest (mode : ContentMode) : List QueuedRequest → Option RadioTrack
  | [] => none
  | req :: rest =>
    if mode.resolves req.kind then
      match lib.fetchTrack req.kind req.itemId with
      | .ok track => some { track with requested := true }
      | .error _ => serveRequest mode rest
    else serveRequest mode rest

def pickAlbum (station : Station) (filters : List FilterRow) (history : List String)
    (anchor : Option String) (forceNew : Bool) (pick : Nat) : Except PickError RadioTrack :=
  let kind := if station.contentMode = .videoOnly then .video else .song
  let resolved := lib.resolve station.contentMode filters kind
  let candidates := if resolved.isEmpty then
      match kind with
      | .song => lib.availableIds .song
      | .video => lib.allPlayableIds .video
    else resolved
  if candidates.isEmpty then .error (.noneInLibrary kind)
  else match lib.pickGroupMode kind (lib.retainAvailable kind candidates)
      (resolveLastSongId anchor history) forceNew pick with
    | .ok chosen => lib.fetchTrack kind chosen
    | .error error => .error error

def notRecent (history songs videos : List String) : List String :=
  let recent := history.take recentRepeatWindow
  if recent.isEmpty then songs
  else
    let filtered := songs.filter (· ∉ recent)
    if filtered.isEmpty && videos.isEmpty then songs else filtered

def pickShuffle (station : Station) (filters : List FilterRow) (history : List String) (pick : Nat) :
    Except PickError RadioTrack :=
  let songs := lib.resolve station.contentMode filters .song
  let videos := lib.resolve station.contentMode filters .video
  if songs.isEmpty && videos.isEmpty then
    lib.pickRandom (if station.contentMode = .videoOnly then .video else .song) pick
  else
    let songs := lib.retainAvailable .song songs
    let videos := lib.retainAvailable .video videos
    let pool := (notRecent history songs videos).map (RadioItemKind.song, ·) ++
      videos.map (RadioItemKind.video, ·)
    match choose pick pool with
    | some chosen => lib.fetchTrack chosen.1 chosen.2
    | none => .error .noCandidates

def pickForStation (station : Station) (filters : List FilterRow) (requests : List QueuedRequest)
    (history : List String) (anchor : Option String) (forceNew : Bool) (pick : Nat) :
    Except PickError RadioTrack :=
  match if station.acceptsRequests then lib.serveRequest station.contentMode requests else none with
  | some track => .ok track
  | none =>
    match station.playMode with
    | .album => lib.pickAlbum station filters history anchor forceNew pick
    | .shuffle => lib.pickShuffle station filters history pick

end Library

end Tomb.Grimoire.Radio
