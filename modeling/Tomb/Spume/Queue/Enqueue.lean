import Mathlib.Data.List.Infix

/-! How items enter the client's queue. What the user answers, where the queue is full or shared, is an
input; the mirror of a remote's queue, the history and the sessions are left out. -/
namespace Tomb.Spume.Enqueue

structure Song where
  (id sha256 : String)
  isOffline : Option Bool
  queueEntryId : Option String
  skipFeedEvents : Option Bool
  deriving DecidableEq

structure QueuedVideo where
  id : String
  isOffline : Option Bool
  queueEntryId : Option String
  deriving DecidableEq

inductive MediaItem where
  | song (song : Song)
  | video (video : QueuedVideo)
  deriving DecidableEq

def songIdentityKey (song : Song) : String := if song.sha256 = "" then song.id else song.sha256

def mediaItemKey : MediaItem → String
  | .song song => songIdentityKey song
  | .video video => video.id

def isMediaItemOffline : MediaItem → Bool
  | .song song => song.isOffline = some true
  | .video video => video.isOffline = some true

def toMediaItems (items : List (Song ⊕ MediaItem)) : List MediaItem := items.map (Sum.elim .song id)

def songsOnly (items : List MediaItem) : List Song :=
  items.filterMap fun item => match item with
    | .song song => some song
    | .video _ => none

def videosOnly (items : List MediaItem) : List QueuedVideo :=
  items.filterMap fun item => match item with
    | .song _ => none
    | .video video => some video

def rejoin : List MediaItem → List Song → List QueuedVideo → List MediaItem
  | .song _ :: items, song :: songs, videos => .song song :: rejoin items songs videos
  | .video _ :: items, songs, video :: videos => .video video :: rejoin items songs videos
  | _, _, _ => []

def unwrapMediaItems (items : List MediaItem) : List MediaItem :=
  rejoin items (songsOnly items) (videosOnly items)

def prepareMediaItems (items : List (Song ⊕ MediaItem)) : List MediaItem :=
  unwrapMediaItems (toMediaItems items)

def findAvailableMediaIndex (items : List MediaItem) (startIndex : Int) : Option Nat :=
  if startIndex < 0 then none
  else ((items.drop startIndex.toNat).findIdx? fun item => !isMediaItemOffline item).map
    (· + startIndex.toNat)

def withQueueEntryId (id : String) : MediaItem → MediaItem
  | .song song => .song { song with
      queueEntryId := (song.queueEntryId.filter (· ≠ "")).or (some id) }
  | .video video => .video { video with
      queueEntryId := (video.queueEntryId.filter (· ≠ "")).or (some id) }

def setQueue (generateUUID : Nat → String) (items : List MediaItem) : List MediaItem :=
  items.mapIdx fun i item => withQueueEntryId (generateUUID i) item

inductive QueueSourceType where
  | song
  | album
  | artist
  | genre
  | playlist
  | shuffle
  | radioStation
  deriving DecidableEq

def replaceSourceTypes : List QueueSourceType := [.album, .artist, .genre, .playlist, .shuffle]

inductive QueueFullChoice where
  | cancel
  | removeFromStart
  | clearAll

inductive ReplaceQueueChoice where
  | replace
  | append
  | cancel

inductive Position where
  | next
  | atEnd

structure AppState where
  queue : List MediaItem
  currentItemKey : Option String

def AppState.currentId (state : AppState) : Option String := state.currentItemKey.filter (· ≠ "")

/-- What a call finds around it: the limit, the user's answers, whether a remote plays and has a
queue, and whether the playback has ended. -/
structure Surroundings where
  queueSizeLimit : Nat
  queueFull : QueueFullChoice
  replaceQueue : ReplaceQueueChoice
  (remoteQueued playbackEnded : Bool)
  generateUUID : Nat → String

inductive Outcome where
  | nothing
  | offline (message : String)
  | set (queue : List MediaItem) (plays : Option MediaItem)
  deriving DecidableEq

def markPlaylist (source : Option QueueSourceType) (items : List MediaItem) : List MediaItem :=
  if source = some .playlist then
    items.map fun item => match item with
      | .song song => .song { song with skipFeedEvents := some true }
      | .video video => .video video
  else items

def truncateAround (items : List MediaItem) (startIndex limit : Nat) : List MediaItem × Nat :=
  if limit < items.length then
    if startIndex < limit then (items.take limit, startIndex)
    else
      let start := startIndex - limit / 2
      let adjustedStart := min start (items.length - limit)
      ((items.drop adjustedStart).take limit, startIndex - adjustedStart)
  else (items, startIndex)

def truncateFrom (items : List MediaItem) (availableIndex limit : Nat) : List MediaItem :=
  if limit < items.length then
    let start := if availableIndex < limit then 0 else availableIndex
    (items.drop start).take limit
  else items

def currentIndex (currentId : Option String) (queue : List MediaItem) : Option Nat :=
  currentId.bind fun key => queue.findIdx? fun item => mediaItemKey item = key

/-- The queue without the items that are too many, from its start; none if there are not enough that
may go. -/
def removeFromStart (currentQueue : List MediaItem) (currentId : Option String)
    (incoming limit : Nat) : Option (List MediaItem) :=
  let removeCount := currentQueue.length + incoming - limit
  let removableSongCount := match currentIndex currentId currentQueue with
    | some (idx + 1) => idx + 1
    | _ => currentQueue.length
  if removableSongCount < removeCount then none else some (currentQueue.drop removeCount)

def insertAfter (key : String) (items currentQueue : List MediaItem) : List MediaItem :=
  match currentQueue.findIdx? fun item => mediaItemKey item = key with
  | none => currentQueue ++ items
  | some idx => currentQueue.take (idx + 1) ++ items ++ currentQueue.drop (idx + 1)

def playQueueInternal (env : Surroundings) (items currentQueue : List MediaItem)
    (currentId : Option String) (startIndex : Nat) : Outcome :=
  let newQueue := match currentId with
    | none => items ++ currentQueue
    | some key => insertAfter key items currentQueue
  .set (setQueue env.generateUUID newQueue) items[startIndex]?

def available (items : List MediaItem) : Option MediaItem :=
  (findAvailableMediaIndex items 0).bind fun index => items[index]?

def addToQueueInternal (env : Surroundings) (items currentQueue : List MediaItem)
    (currentId : Option String) (startPlaying : Bool) (position : Position) : Outcome :=
  let newQueue := match position, currentId with
    | .next, none => items ++ currentQueue
    | .next, some key =>
      if currentQueue = [] then items ++ currentQueue else insertAfter key items currentQueue
    | .atEnd, _ => currentQueue ++ items
  .set (setQueue env.generateUUID newQueue)
    (if startPlaying || currentId.isNone || env.playbackEnded then available items else none)

def addToQueue (env : Surroundings) (state : AppState) (songs : List (Song ⊕ MediaItem))
    (startPlaying : Bool) (position : Position) (source : Option QueueSourceType) : Outcome :=
  if songs = [] then .nothing
  else
    let unwrappedItems := prepareMediaItems songs
    match findAvailableMediaIndex unwrappedItems 0 with
    | none => .offline "all selected media is on offline storage"
    | some availableIndex =>
      let finalItems := markPlaylist source
        (truncateFrom unwrappedItems availableIndex env.queueSizeLimit)
      let cleared : Outcome := .set (setQueue env.generateUUID finalItems)
        (if startPlaying || state.currentId.isNone || env.playbackEnded then available finalItems
          else none)
      if env.queueSizeLimit < state.queue.length + finalItems.length then
        match env.queueFull with
        | .cancel => .nothing
        | .clearAll => cleared
        | .removeFromStart =>
          match removeFromStart state.queue state.currentId finalItems.length
              env.queueSizeLimit with
          | none => cleared
          | some trimmedQueue =>
            addToQueueInternal env finalItems trimmedQueue state.currentId startPlaying position
      else addToQueueInternal env finalItems state.queue state.currentId startPlaying position

def playQueue (env : Surroundings) (state : AppState) (songs : List (Song ⊕ MediaItem))
    (requestedStartIndex : Int) (source : Option QueueSourceType) : Outcome :=
  if songs = [] then .nothing
  else
    let unwrappedItems := prepareMediaItems songs
    match findAvailableMediaIndex unwrappedItems requestedStartIndex with
    | none => .offline "no available media at or after this position"
    | some availableIndex =>
      let (truncated, startIndex) :=
        truncateAround unwrappedItems availableIndex env.queueSizeLimit
      let finalItems := markPlaylist source truncated
      let replaced : Outcome := .set (setQueue env.generateUUID finalItems) finalItems[startIndex]?
      if state.queue = [] then replaced
      else if source.any (replaceSourceTypes.contains ·) then
        if env.remoteQueued then
          match env.replaceQueue with
          | .cancel => .nothing
          | .append => addToQueue env state (finalItems.map .inr) false .atEnd source
          | .replace => replaced
        else replaced
      else if env.queueSizeLimit < state.queue.length + finalItems.length then
        match env.queueFull with
        | .cancel => .nothing
        | .clearAll => replaced
        | .removeFromStart =>
          match removeFromStart state.queue state.currentId finalItems.length
              env.queueSizeLimit with
          | none => replaced
          | some trimmedQueue =>
            playQueueInternal env finalItems trimmedQueue state.currentId startIndex
      else playQueueInternal env finalItems state.queue state.currentId startIndex

end Tomb.Spume.Enqueue
