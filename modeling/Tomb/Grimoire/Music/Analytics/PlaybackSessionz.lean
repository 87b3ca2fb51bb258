import Tomb.Lib.Runs
import Tomb.Lib.Table

/-! The playback sessions of a server: the table with its triggers, and the calls that create and
update sessions, statement by statement. The checks of the items read other tables; what they find
is given with the step. Times and columns that only the feed shows are left out, save those that a
trigger reads. -/
namespace Tomb.Grimoire.Music.Analytics
open Lib

inductive PlaybackSessionStatus where
  | active
  | paused
  | completed
  | abandoned
  deriving DecidableEq

structure SessionItem where
  (entityType entityId : String)
  deriving DecidableEq

structure PlaybackSession where
  (id userId sessionType label : String)
  items : List SessionItem
  totalItems : Int
  itemsCompleted : Int := 0
  totalDurationMs : Int
  currentItemIndex : Int := 0
  status : PlaybackSessionStatus := .active
  updatedAt : Int
  deriving DecidableEq

inductive Column where
  | label
  | items
  | totalItems
  | itemsCompleted
  | totalDurationMs
  | currentItemIndex
  | status
  | updatedAt
  deriving DecidableEq

def sessionTypes : List String :=
  ["song", "album", "artist", "taxon", "playlist", "shuffle", "radio", "video", "video_series",
    "video_season", "mixed"]

namespace PlaybackSession

def Open (row : PlaybackSession) : Prop := row.status = .active ∨ row.status = .paused

def Played (row : PlaybackSession) : Prop :=
  row.totalItems ≤ row.itemsCompleted ∧ 0 < row.totalItems

instance (row : PlaybackSession) : Decidable row.Open := inferInstanceAs (Decidable (_ ∨ _))

instance (row : PlaybackSession) : Decidable row.Played := inferInstanceAs (Decidable (_ ∧ _))

end PlaybackSession

def setStatus (status : PlaybackSessionStatus) : RowChange PlaybackSession Column where
  sets := [.status]
  apply row := { row with status := status }

inductive SessionTrigger where
  | updatedAt
  | autoComplete
  | autoCompleteOnStatus
  | clampCompleted
  deriving DecidableEq

def sessionTriggers : List SessionTrigger :=
  [.updatedAt, .autoComplete, .autoCompleteOnStatus, .clampCompleted]

@[grind =] def sessionTrigger (now : Int) : SessionTrigger → Trigger PlaybackSession Column
  | .updatedAt => {
      columns := []
      when := fun old new => new.updatedAt = old.updatedAt
      body := fun _ => ⟨[.updatedAt], fun row => { row with updatedAt := now }⟩ }
  | .autoComplete => {
      columns := [.itemsCompleted, .totalItems]
      when := fun _ new => new.Open ∧ new.Played
      body := fun _ => setStatus .completed }
  | .autoCompleteOnStatus => {
      columns := [.status]
      when := fun _ new => new.status = .active ∧ new.Played
      body := fun _ => setStatus .completed }
  | .clampCompleted => {
      columns := [.totalItems]
      when := fun _ new => new.totalItems < new.itemsCompleted
      body := fun new =>
        ⟨[.itemsCompleted], fun row => { row with itemsCompleted := new.totalItems }⟩ }

/-- The order in which triggers of one event start is up to the database. -/
def TriggerOrder := { order : List SessionTrigger // order.Perm sessionTriggers }

def newestFirst : TriggerOrder := ⟨sessionTriggers.reverse, List.reverse_perm _⟩

def updated (order : TriggerOrder) (now : Int) (change : RowChange PlaybackSession Column)
    (row : PlaybackSession) : PlaybackSession :=
  settle (sessionTrigger now) order.val.length order.val change row

structure CreatePlaybackSessionRequest where
  (sessionType label : String)
  items : List SessionItem
  totalDurationMs : Int

structure UpdatePlaybackSessionItemsRequest where
  items : List SessionItem
  label : String
  totalDurationMs : Int

/-- What the tables of songs and videos hold of the ids that were asked for, and nothing where the
query failed. -/
structure Found where
  (songs videos : Option (List String))

def validateItems (found : Found) (items : List SessionItem) : List SessionItem :=
  let ids (kind : String) := (items.filter (·.entityType = kind)).map (·.entityId)
  items.filter fun item =>
    if item.entityType = "song" then item.entityId ∈ found.songs.getD (ids "song")
    else if item.entityType = "video" then item.entityId ∈ found.videos.getD (ids "video")
    else false

inductive SessionCall where
  | create (userId : String) (req : CreatePlaybackSessionRequest)
  | insert (userId : String) (req : CreatePlaybackSessionRequest) (validated : List SessionItem)
  | checkProgress (id userId : String) (progress : Int)
  | updateProgress (id userId : String) (progress : Int)
  | updateStatus (id userId : String) (status : PlaybackSessionStatus)
  | checkItems (id userId : String) (req : UpdatePlaybackSessionItemsRequest)
  | updateItems (id userId : String) (req : UpdatePlaybackSessionItemsRequest)
      (validated : List SessionItem)
  | done

/-- What a statement finds besides the sessions: the time, the id that is drawn, and the items. -/
structure Env where
  now : Int
  fresh : String
  found : Found

structure Sessions where
  playbackSessionz : Table PlaybackSession.id := ∅
  calls : List SessionCall := []
  /-- The sessions that were completed with the items that they have. -/
  finished : List String := []

def setProgress (progress now : Int) : RowChange PlaybackSession Column where
  sets := [.itemsCompleted, .currentItemIndex, .updatedAt]
  apply row := { row with
    itemsCompleted := max row.itemsCompleted progress
    currentItemIndex := max row.currentItemIndex (max 0 (progress - 1))
    updatedAt := now }

def setStatusAt (status : PlaybackSessionStatus) (now : Int) :
    RowChange PlaybackSession Column where
  sets := [.status, .updatedAt]
  apply row := { row with status := status, updatedAt := now }

def setItems (req : UpdatePlaybackSessionItemsRequest) (validated : List SessionItem) (now : Int) :
    RowChange PlaybackSession Column where
  sets := [.items, .label, .totalItems, .totalDurationMs, .updatedAt]
  apply row := { row with
    items := validated
    label := req.label
    totalItems := validated.length
    totalDurationMs := req.totalDurationMs
    updatedAt := now }

theorem updated_id (order : TriggerOrder) (now : Int) {change : RowChange PlaybackSession Column}
    (keeps : ∀ row, (change.apply row).id = row.id) (row : PlaybackSession) :
    (updated order now change row).id = row.id := by
  let same (other : PlaybackSession) : Prop := other.id = row.id
  have respects : Respects (sessionTrigger now) same same := by
    intro t old new current _ _ kept
    cases t <;> exact kept
  exact settle_keeps (fun _ kept => kept) respects (keeps row)

namespace Sessions

def goOn (s : Sessions) (call : Nat) (next : SessionCall) : Sessions :=
  { s with calls := s.calls.set call next }

def updateWhere (s : Sessions) (order : TriggerOrder) (now : Int) (p : PlaybackSession → Bool)
    (change : RowChange PlaybackSession Column) (keeps : ∀ row, (change.apply row).id = row.id) :
    Sessions :=
  { s with
    playbackSessionz := s.playbackSessionz.update p (updated order now change)
      (updated_id order now keeps) }

def autoPause (s : Sessions) (order : TriggerOrder) (now : Int) (new : PlaybackSession) :
    Sessions :=
  s.updateWhere order now
    (fun row => row.userId = new.userId ∧ row.id ≠ new.id ∧ row.status = .active)
    (setStatus .paused) fun _ => rfl

def insert (s : Sessions) (order : TriggerOrder) (now : Int) (row : PlaybackSession) : Sessions :=
  if row.sessionType ∈ sessionTypes then
    match s.playbackSessionz.insert row with
    | some table => { s with playbackSessionz := table }.autoPause order now row
    | none => s
  else s

def statement (s : Sessions) (order : TriggerOrder) (call : Nat) (env : Env) : Sessions :=
  match s.calls[call]? with
  | some (.create userId req) =>
    let validated := validateItems env.found req.items
    if validated = [] ∧ req.sessionType ≠ "radio" then s.goOn call .done
    else s.goOn call (.insert userId req validated)
  | some (.insert userId req validated) =>
    let row : PlaybackSession := {
      id := env.fresh, userId := userId, sessionType := req.sessionType, label := req.label,
      items := validated, totalItems := validated.length, totalDurationMs := req.totalDurationMs,
      updatedAt := env.now }
    (s.insert order env.now row).goOn call .done
  | some (.checkProgress id userId progress) =>
    match (s.playbackSessionz.get id).filter (·.userId = userId) with
    | some row =>
      if row.status = .completed ∨ progress ≤ row.itemsCompleted then s.goOn call .done
      else s.goOn call (.updateProgress id userId progress)
    | none => s.goOn call .done
  | some (.updateProgress id userId progress) =>
    (s.updateWhere order env.now (fun row => row.id = id ∧ row.userId = userId)
      (setProgress progress env.now) fun _ => rfl).goOn call .done
  | some (.updateStatus id userId status) =>
    (s.updateWhere order env.now (fun row => row.id = id ∧ row.userId = userId)
      (setStatusAt status env.now) fun _ => rfl).goOn call .done
  | some (.checkItems id userId req) =>
    s.goOn call (.updateItems id userId req (validateItems env.found req.items))
  | some (.updateItems id userId req validated) =>
    (s.updateWhere order env.now (fun row => row.id = id ∧ row.userId = userId ∧ row.Open)
      (setItems req validated env.now) fun _ => rfl).goOn call .done
  | some .done | none => s

end Sessions

inductive SessionOp where
  | createPlaybackSession (userId : String) (req : CreatePlaybackSessionRequest)
  | updatePlaybackSessionProgress (id userId : String) (progress : Int)
  | updatePlaybackSessionStatus (id userId : String) (status : PlaybackSessionStatus)
  | updatePlaybackSessionItems (id userId : String) (req : UpdatePlaybackSessionItemsRequest)
  /-- A call runs its next statement. -/
  | statement (call : Nat) (env : Env)

def SessionOp.begins : SessionOp → Option SessionCall
  | .createPlaybackSession userId req => some (.create userId req)
  | .updatePlaybackSessionProgress id userId progress => some (.checkProgress id userId progress)
  | .updatePlaybackSessionStatus id userId status => some (.updateStatus id userId status)
  | .updatePlaybackSessionItems id userId req => some (.checkItems id userId req)
  | .statement _ _ => none

namespace Sessions

def perform (order : TriggerOrder) (op : SessionOp) (s : Sessions) : Sessions :=
  match op with
  | .statement call env => s.statement order call env
  | op => { s with calls := s.calls ++ op.begins.toList }

def finishes (s : Sessions) (row : PlaybackSession) : Bool :=
  row.status = .completed ∨
    row.id ∈ s.finished ∧ (s.playbackSessionz.get row.id).map (·.items) = some row.items

def step (order : TriggerOrder) (op : SessionOp) (s : Sessions) : Sessions :=
  let next := s.perform order op
  { next with finished := (next.playbackSessionz.select s.finishes).map (·.id) }

def Admits (s : Sessions) (row : PlaybackSession) : PlaybackSessionStatus → Prop
  | .active => row.Played ∨ row.id ∉ s.finished ∧
      ∀ other ∈ s.playbackSessionz.rows, other.userId = row.userId → other.status = .active →
        other.id = row.id
  | .paused => ¬row.Played ∧ row.id ∉ s.finished
  | .completed | .abandoned => True

instance (s : Sessions) (row : PlaybackSession) :
    (status : PlaybackSessionStatus) → Decidable (s.Admits row status)
  | .active => inferInstanceAs (Decidable (_ ∨ _))
  | .paused => inferInstanceAs (Decidable (_ ∧ _))
  | .completed | .abandoned => .isTrue trivial

/-- Progress stays within the items of the session; a session is made active or paused only when it
was not completed, and active only when the user has no other active one. -/
def FitsCall (s : Sessions) : Option SessionCall → Prop
  | some (.updateProgress id userId progress) => ∀ row ∈ s.playbackSessionz.rows,
      row.id = id → row.userId = userId → progress ≤ row.totalItems
  | some (.updateStatus id userId status) => ∀ row ∈ s.playbackSessionz.rows,
      row.id = id → row.userId = userId → s.Admits row status
  | _ => True

instance (s : Sessions) : (call : Option SessionCall) → Decidable (s.FitsCall call)
  | some (.updateProgress _ _ _) | some (.updateStatus _ _ _) =>
    inferInstanceAs (Decidable (∀ row ∈ s.playbackSessionz.rows, _))
  | some (.create _ _) | some (.insert _ _ _) | some (.checkProgress _ _ _)
  | some (.checkItems _ _ _) | some (.updateItems _ _ _ _) | some .done | none => .isTrue trivial

def Fits : SessionOp → Sessions → Prop
  | .statement call _, s => s.FitsCall s.calls[call]?
  | _, _ => True

instance : (op : SessionOp) → (s : Sessions) → Decidable (Fits op s)
  | .statement call _, s => inferInstanceAs (Decidable (s.FitsCall s.calls[call]?))
  | .createPlaybackSession _ _, _ | .updatePlaybackSessionProgress _ _ _, _
  | .updatePlaybackSessionStatus _ _ _, _ | .updatePlaybackSessionItems _ _ _, _ => .isTrue trivial

end Sessions

end Tomb.Grimoire.Music.Analytics
