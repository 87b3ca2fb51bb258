import Mathlib.Data.List.Dedup
import Tomb.Lib.Runs
import Tomb.Lib.Table

/-! The playback sessions that the client keeps on its remotes. A call awaits tasks, a task awaits
its remote and then an answer; what has no await between is one step. A request is served at some
time between the two. Labels and types of sessions, the signal and the link to the history entry are
left out. -/
namespace Tomb.Spume.Queue
open Lib

structure MediaItem where
  key : String
  remoteServerId : Option String
  isRemote : Bool
  deriving DecidableEq

def itemRemoteId (item : MediaItem) : Option String := item.remoteServerId.filter (· ≠ "")

def remoteItems (items : List MediaItem) : List (String × Nat) :=
  items.zipIdx.filterMap fun (item, index) =>
    if item.isRemote then (itemRemoteId item).map (·, index) else none

def groupItemsByRemote (items : List MediaItem) : List (String × List Nat) :=
  let found := remoteItems items
  (found.map Prod.fst).eraseDups.map fun remoteId =>
    (remoteId, (found.filter (·.1 = remoteId)).map Prod.snd)

inductive SessionStatus where
  | active
  | paused
  | completed
  | abandoned
  deriving DecidableEq

structure RemoteSession where
  (sessionId remoteId : String)
  itemIndices : List Nat
  progress : Int

structure PlaybackRecord where
  (remoteId sessionId : String)
  status : SessionStatus
  totalItems : Nat
  itemsCompleted : Int

namespace PlaybackRecord

def key (record : PlaybackRecord) : String × String := (record.remoteId, record.sessionId)

def isOpen (record : PlaybackRecord) : Bool := record.status = .active ∨ record.status = .paused

def played (record : PlaybackRecord) : Bool :=
  record.totalItems ≤ record.itemsCompleted ∧ 0 < record.totalItems

def autoComplete (record : PlaybackRecord) : PlaybackRecord :=
  if record.isOpen ∧ record.played then { record with status := .completed } else record

def setStatus (status : SessionStatus) (record : PlaybackRecord) : PlaybackRecord :=
  { record with
    status := if status = .active ∧ record.played then .completed else status }

def setItems (total : Nat) (record : PlaybackRecord) : PlaybackRecord :=
  if record.isOpen then
    let clamped : PlaybackRecord :=
      { record with totalItems := total, itemsCompleted := min record.itemsCompleted total }
    clamped.autoComplete
  else record

def setProgress (progress : Int) (record : PlaybackRecord) : PlaybackRecord :=
  if record.status = .completed ∨ progress ≤ record.itemsCompleted then record
  else { record with itemsCompleted := progress }.autoComplete

end PlaybackRecord

inductive Request where
  | createPlaybackSession (remoteId : String)
  | updatePlaybackSessionStatus (remoteId sessionId : String) (status : SessionStatus)
  | updatePlaybackSessionItems (remoteId sessionId : String)
  | updatePlaybackSessionProgress (remoteId sessionId : String) (progress : Int)
  deriving DecidableEq

/-- What a task is for. A session is an object that calls share; tasks refer to it by its index. -/
inductive Work where
  | stop (remoteId sessionId : String) (status : SessionStatus)
  | create (remoteId : String) (itemIndices : List Nat)
  | abandon (remoteId sessionId : String)
  | items (remoteId sessionId : String)
  | activate (remoteId sessionId : String)
  | progress (session : Nat)
  deriving DecidableEq

inductive Stage where
  /-- The remote is looked up, and a client for it. -/
  | reaching
  | sent (request : Request)
  /-- With the id of the session, if one was created. -/
  | answered (created : Option String)
  | done
  deriving DecidableEq

structure Task where
  owner : Nat
  work : Work
  stage : Stage
  deriving DecidableEq

inductive Next where
  | done
  | create (items : List MediaItem)
  | resume (sessionId remoteId : String) (progress : Int) (items : Option (List MediaItem))
  deriving DecidableEq

inductive Call.Phase where
  | stopping (next : Next)
  | stopped (next : Next)
  | joining
  | done
  deriving DecidableEq

structure ServerSessions where
  sessions : List RemoteSession := []
  /-- Which session is held for a remote. -/
  remoteSessions : Table (Prod.fst : String × Nat → String) := ∅
  calls : List Call.Phase := []
  tasks : List Task := []
  /-- What the remotes have. -/
  records : Table PlaybackRecord.key := ∅
  /-- The sessions that these calls created or set active. -/
  begun : List (String × String) := []
  /-- Each progress that was sent, and how many items its session had then. -/
  sent : List (Int × Nat) := []

namespace ServerSessions

variable (s : ServerSessions)

def held (remoteId : String) : Option RemoteSession :=
  (s.remoteSessions.get remoteId).bind fun entry => s.sessions[entry.2]?

-- one named proof for the membership test of the pairs below
local instance pairLawful : LawfulBEq (String × String) := inferInstance

def live (remoteId sessionId : String) : Bool :=
  (remoteId, sessionId) ∈ s.begun ∧
    (s.records.get (remoteId, sessionId)).any (·.status = .active)

def drop (remoteId : String) : ServerSessions :=
  { s with remoteSessions := s.remoteSessions.deleteWhere (·.1 = remoteId) }

def clear : ServerSessions := { s with remoteSessions := ∅ }

def hold (session : RemoteSession) : ServerSessions :=
  { s with
    sessions := s.sessions ++ [session]
    remoteSessions := s.remoteSessions.upsert (session.remoteId, s.sessions.length) }

def setStage (task : Nat) (stage : Stage) : ServerSessions :=
  { s with tasks := s.tasks.modify task fun task => { task with stage := stage } }

def setPhase (call : Nat) (phase : Call.Phase) : ServerSessions :=
  { s with calls := s.calls.set call phase }

def call (phase : Call.Phase) (work : List Work) : ServerSessions :=
  { s with
    calls := s.calls ++ [phase]
    tasks := s.tasks ++ work.map fun work => ⟨s.calls.length, work, .reaching⟩ }

def allHeld : List (String × RemoteSession) :=
  s.remoteSessions.rows.filterMap fun entry => (s.sessions[entry.2]?).map (entry.1, ·)

def stopping (status : SessionStatus) (next : Next) : ServerSessions :=
  if s.remoteSessions.rows = [] then s.call (.stopped next) []
  else s.call (.stopping next)
    (s.allHeld.map fun (_, session) => .stop session.remoteId session.sessionId status)

def groupOf (groups : List (String × List Nat)) (session : Nat) : Option (List Nat) :=
  s.remoteSessions.rows.findSome? fun entry =>
    if entry.2 = session then groups.lookup entry.1 else none

def updateServerSessionItems (items : List MediaItem) : ServerSessions :=
  if s.remoteSessions.rows = [] then s
  else
    let groups := groupItemsByRemote items
    let work (held : String × RemoteSession) : Work :=
      if (groups.lookup held.1).isSome then .items held.1 held.2.sessionId
      else .abandon held.1 held.2.sessionId
    let listed : ServerSessions := { s with
      sessions := s.sessions.mapIdx fun index session =>
        match s.groupOf groups index with
        | some group => { session with itemIndices := group }
        | none => session }
    listed.call .joining (s.allHeld.map work)

def newProgress (queue : List MediaItem) (item : MediaItem) : Option (Nat × Int) := do
  let remoteId ← itemRemoteId item
  let entry ← s.remoteSessions.get remoteId
  let session ← s.sessions[entry.2]?
  let globalIdx ← queue.findIdx? (·.key = item.key)
  let localIdx ← session.itemIndices.idxOf? globalIdx
  if (localIdx : Int) + 1 ≤ session.progress then none else some (entry.2, localIdx + 1)

def advanceServerProgress (queue : List MediaItem) (currentItem : Option MediaItem) :
    ServerSessions :=
  match currentItem.bind (s.newProgress queue) with
  | some (session, progress) =>
    let advanced : ServerSessions := { s with
      sessions := s.sessions.modify session fun session => { session with progress := progress } }
    advanced.call .joining [.progress session]
  | none => s

def send (task : Nat) (request : Request) : ServerSessions := s.setStage task (.sent request)

def reach (task : Nat) (resolved : Bool) : ServerSessions :=
  match s.tasks[task]? with
  | some ⟨_, .stop remoteId sessionId status, .reaching⟩ =>
    if resolved then s.send task (.updatePlaybackSessionStatus remoteId sessionId status)
    else s.setStage task .done
  | some ⟨_, .create remoteId _, .reaching⟩ =>
    if resolved then s.send task (.createPlaybackSession remoteId) else s.setStage task .done
  | some ⟨_, .abandon remoteId sessionId, .reaching⟩ =>
    if resolved then s.send task (.updatePlaybackSessionStatus remoteId sessionId .abandoned)
    else (s.drop remoteId).setStage task .done
  | some ⟨_, .items remoteId sessionId, .reaching⟩ =>
    if resolved then s.send task (.updatePlaybackSessionItems remoteId sessionId)
    else s.setStage task .done
  | some ⟨_, .activate remoteId sessionId, .reaching⟩ =>
    s.send task (.updatePlaybackSessionStatus remoteId sessionId .active)
  | some ⟨_, .progress index, .reaching⟩ =>
    match s.sessions[index]? with
    | some session =>
      if resolved then
        let sent : ServerSessions :=
          { s with sent := s.sent ++ [(session.progress, session.itemIndices.length)] }
        sent.send task
          (.updatePlaybackSessionProgress session.remoteId session.sessionId session.progress)
      else (s.drop session.remoteId).setStage task .done
    | none => s
  | _ => s

def change (remoteId sessionId : String) (f : PlaybackRecord → PlaybackRecord)
    (keeps : ∀ record, (f record).key = record.key) : ServerSessions :=
  { s with records := s.records.update (fun record => record.key = (remoteId, sessionId)) f keeps }

theorem setStatus_key (status : SessionStatus) (record : PlaybackRecord) :
    (record.setStatus status).key = record.key := rfl

theorem autoComplete_key (record : PlaybackRecord) : record.autoComplete.key = record.key := by
  unfold PlaybackRecord.autoComplete
  split <;> rfl

theorem setItems_key (total : Nat) (record : PlaybackRecord) :
    (record.setItems total).key = record.key := by
  unfold PlaybackRecord.setItems
  split
  · exact autoComplete_key _
  · rfl

theorem setProgress_key (progress : Int) (record : PlaybackRecord) :
    (record.setProgress progress).key = record.key := by
  unfold PlaybackRecord.setProgress
  split
  · rfl
  · exact autoComplete_key _

/-- A session is made on a remote, with an id that it draws; the active ones there are paused. -/
def create (remoteId fresh : String) (total : Nat) : Option ServerSessions :=
  let others := s.records.update
    (fun record => record.remoteId = remoteId ∧ record.status = .active)
    (fun record => { record with status := .paused }) fun _ => rfl
  (others.insert ⟨remoteId, fresh, .active, total, 0⟩).map fun records =>
    { s with records := records, begun := s.begun ++ [(remoteId, fresh)] }

def serve (task : Nat) (fresh : String) (total : Nat) : ServerSessions :=
  match s.tasks[task]? with
  | some ⟨_, .create remoteId _, .sent (.createPlaybackSession _)⟩ =>
    match s.create remoteId fresh total with
    | some next => next.setStage task (.answered (some fresh))
    | none => s
  | some ⟨_, _, .sent (.updatePlaybackSessionStatus remoteId sessionId status)⟩ =>
    let begun := if status = .active then s.begun ++ [(remoteId, sessionId)] else s.begun
    let noted : ServerSessions := { s with begun := begun }
    (noted.change remoteId sessionId _ (setStatus_key status)).setStage task (.answered none)
  | some ⟨_, _, .sent (.updatePlaybackSessionItems remoteId sessionId)⟩ =>
    (s.change remoteId sessionId _ (setItems_key total)).setStage task (.answered none)
  | some ⟨_, _, .sent (.updatePlaybackSessionProgress remoteId sessionId progress)⟩ =>
    (s.change remoteId sessionId _ (setProgress_key progress)).setStage task (.answered none)
  | _ => s

def answer (task : Nat) : ServerSessions :=
  match s.tasks[task]? with
  | some ⟨_, .create remoteId itemIndices, .answered (some created)⟩ =>
    (s.hold ⟨created, remoteId, itemIndices, 0⟩).setStage task .done
  | some ⟨_, .abandon remoteId _, .answered _⟩ => (s.drop remoteId).setStage task .done
  | some ⟨_, .progress index, .answered _⟩ =>
    match s.sessions[index]? with
    | some session =>
      if session.itemIndices.length ≤ session.progress then
        (s.drop session.remoteId).setStage task .done
      else s.setStage task .done
    | none => s
  | some ⟨_, _, .answered _⟩ => s.setStage task .done
  | _ => s

def settled (call : Nat) : Bool := s.tasks.all fun task => task.owner ≠ call ∨ task.stage = .done

def begin (call : Nat) (work : List Work) : ServerSessions :=
  let begun : ServerSessions :=
    { s with tasks := s.tasks ++ work.map fun work => ⟨call, work, .reaching⟩ }
  begun.setPhase call .joining

def resumedIndices (remoteId : String) (items : List MediaItem) : List Nat :=
  (items.zipIdx.filter fun item => itemRemoteId item.1 = some remoteId).map Prod.snd

def proceed (call : Nat) : ServerSessions :=
  match s.calls[call]? with
  | some (.stopping next) =>
    if s.settled call then s.clear.setPhase call (.stopped next) else s
  | some (.stopped .done) => s.setPhase call .done
  | some (.stopped (.create items)) =>
    s.begin call ((groupItemsByRemote items).map fun group => .create group.1 group.2)
  | some (.stopped (.resume sessionId remoteId progress items)) =>
    (s.hold ⟨sessionId, remoteId, resumedIndices remoteId (items.getD []), progress⟩).begin call
      [.activate remoteId sessionId]
  | some .joining => if s.settled call then s.setPhase call .done else s
  | some .done | none => s

end ServerSessions

inductive ServerSessionOp where
  | createServerSessions (items : List MediaItem)
  | updateServerSessionItems (items : List MediaItem)
  | stopAllServerSessions (status : { status : SessionStatus // status ≠ .active })
  | resumeServerSession (sessionId remoteId : String) (progress : Int)
      (items : Option (List MediaItem))
  | advanceServerProgress (queue : List MediaItem) (currentItem : Option MediaItem)
  | reach (task : Nat) (resolved : Bool)
  | serve (task : Nat) (fresh : String) (total : Nat)
  | answer (task : Nat)
  | proceed (call : Nat)

namespace ServerSessions

def step : ServerSessionOp → ServerSessions → ServerSessions
  | .createServerSessions items, s => s.stopping .paused (.create items)
  | .updateServerSessionItems items, s => s.updateServerSessionItems items
  | .stopAllServerSessions status, s => s.stopping status.val .done
  | .resumeServerSession sessionId remoteId progress items, s =>
    if remoteId = "" then s else s.stopping .paused (.resume sessionId remoteId progress items)
  | .advanceServerProgress queue currentItem, s => s.advanceServerProgress queue currentItem
  | .reach task resolved, s => s.reach task resolved
  | .serve task fresh total, s => s.serve task fresh total
  | .answer task, s => s.answer task
  | .proceed call, s => s.proceed call

end ServerSessions

end Tomb.Spume.Queue
