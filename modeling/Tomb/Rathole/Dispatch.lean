import Tomb.Rathole.Queue

/-! The dispatch of queue pushes from remote controllers. A dispatch gets its context when the ui
loop receives its request and then runs as a task of its own, which awaits one import after another;
what it does to the queue goes through the ui loop's action channel. -/
namespace Tomb.Rathole

/-- An entry of the queue and the dispatch that put it there, if one did. Nothing reads the latter. -/
structure Queued where
  entry : QueueEntry
  batch : Option Nat

def Queued.ref (queued : Queued) : MediaRef := queueEntryToMediaRef queued.entry

def Queued.hash (queued : Queued) : String := queued.ref.blake3Hash

inductive AppAction where
  | pairingReplaceQueue (entries : List Queued)
  | pairingAppendQueue (entries : List Queued)
  | pairingQueuePending (items : List MediaRef)
  | pairingQueuePreviewSettled (blake3Hash : String)
  | pairingItemUnresolved (blake3Hash sourcePeerAddr : String)
  | pairingItemResolved (blake3Hash : String)

namespace AppAction

@[grind =] def handle : AppAction → App Queued → App Queued
  | pairingReplaceQueue entries, app =>
    if entries.isEmpty then app else app.setQueueEntries entries 0
  | pairingAppendQueue entries, app => app.appendQueueEntries entries
  | pairingQueuePending items, app => { app with pendingPreviews := app.pendingPreviews ++ items }
  | pairingQueuePreviewSettled blake3Hash, app =>
    { app with pendingPreviews := app.pendingPreviews.filter (·.blake3Hash ≠ blake3Hash) }
  | pairingItemUnresolved blake3Hash sourcePeerAddr, app =>
    if app.unresolvedItems.any (·.blake3Hash = blake3Hash) then app
    else { app with unresolvedItems := app.unresolvedItems ++ [⟨blake3Hash, sourcePeerAddr⟩] }
  | pairingItemResolved blake3Hash, app =>
    { app with unresolvedItems := app.unresolvedItems.filter (·.blake3Hash ≠ blake3Hash) }

@[grind =] def delivers : AppAction → Bool
  | pairingReplaceQueue _ | pairingAppendQueue _ => true
  | _ => false

end AppAction

structure StatusCommon where
  queue : List MediaRef
  autoDownloadEnabled : Bool
  recentlyPlayed : List String
  unresolvedItems : List UnresolvedItemRef

inductive PlayerStatus where
  | stopped (common : StatusCommon)
  | nowPlaying (item : MediaRef) (positionMs : Nat) (common : StatusCommon)
  | paused (positionMs : Nat) (common : StatusCommon)
  | buffering (common : StatusCommon)
  | error (message : String) (common : StatusCommon)

@[grind =] def PlayerStatus.common : PlayerStatus → StatusCommon
  | stopped common | nowPlaying _ _ common | paused _ common | buffering common
  | error _ common => common

structure DispatchContext where
  queueSnapshot : List MediaRef
  isPlaying : Bool
  positionMs : Nat
  recentlyPlayed : List String
  unresolvedItems : List UnresolvedItemRef

namespace DispatchContext

def of {ε : Type} (ref : ε → MediaRef) (app : App ε) (isPlaying : Bool) (positionMs : Nat) : DispatchContext where
  queueSnapshot :=
    match app.radio with
    | some item => [item]
    | none =>
      match app.current with
      | some cur => (app.queue.drop cur).map ref
      | none => []
  isPlaying
  positionMs
  recentlyPlayed := app.history.map fun entry => (ref entry).blake3Hash
  unresolvedItems := app.unresolvedItems

@[grind =] def common (ctx : DispatchContext) : StatusCommon where
  queue := ctx.queueSnapshot
  autoDownloadEnabled := false
  recentlyPlayed := ctx.recentlyPlayed
  unresolvedItems := ctx.unresolvedItems

def statusWithCommon (ctx : DispatchContext) (common : StatusCommon) : PlayerStatus :=
  match common.queue with
  | [] => .stopped common
  | item :: _ =>
    if ctx.isPlaying then .nowPlaying item ctx.positionMs common
    else .paused ctx.positionMs common

def statusAck (ctx : DispatchContext) : PlayerStatus := ctx.statusWithCommon ctx.common

theorem queueSnapshot_of {ε : Type} {ref : ε → MediaRef} {app : App ε} (aligned : app.Aligned)
    (radio : app.radio = none) (isPlaying : Bool) (positionMs : Nat) :
    (of ref app isPlaying positionMs).queueSnapshot = app.queue.map ref := by
  unfold of
  rw [App.Aligned] at aligned
  split at aligned
  · rename_i empty
    simp [radio, aligned, empty]
  · simp [radio, aligned]

@[simp] theorem statusWithCommon_common (ctx : DispatchContext) (common : StatusCommon) :
    (ctx.statusWithCommon common).common = common := by
  unfold statusWithCommon
  split
  · rfl
  · split <;> rfl

end DispatchContext

inductive DeliveryMode where
  | alwaysAppend
  | replaceFirstThenAppend
  deriving DecidableEq

/-- A dispatch under way: the item that it awaits, unless it has not begun, the items behind it, and
the locals of `resolve_queue_items`. `since` counts the deliveries of all dispatches before the ones
that its view of the queue has to take into account. -/
structure Task where
  id : Nat
  mode : DeliveryMode
  ctx : DispatchContext
  importing : Option MediaRef
  items : List MediaRef
  queuedHashes : List String
  sentFirst : Bool
  entries : List QueueEntry
  since : Nat

namespace Task

def Unsent (task : Task) : Prop :=
  task.mode = .replaceFirstThenAppend ∧ task.sentFirst = false

instance (task : Task) : Decidable task.Unsent := inferInstanceAs (Decidable (_ ∧ _))

def seed (task : Task) : List String :=
  match task.mode with
  | .alwaysAppend => task.ctx.queueSnapshot.map (·.blake3Hash)
  | .replaceFirstThenAppend => []

/-- What is told of the items that are skipped as already queued, and the first that is not. -/
def nextItem (queuedHashes : List String) :
    List MediaRef → List AppAction × Option (MediaRef × List MediaRef)
  | [] => ([], none)
  | item :: rest =>
    if item.blake3Hash ∈ queuedHashes then
      (.pairingQueuePreviewSettled item.blake3Hash :: (nextItem queuedHashes rest).1,
        (nextItem queuedHashes rest).2)
    else ([], some (item, rest))

def delivery (task : Task) (entry : QueueEntry) : AppAction :=
  if task.Unsent then .pairingReplaceQueue [⟨entry, some task.id⟩]
  else .pairingAppendQueue [⟨entry, some task.id⟩]

def status (task : Task) : PlayerStatus :=
  match task.mode with
  | .replaceFirstThenAppend =>
    if task.entries.isEmpty then .error "no playable items in queue" task.ctx.common
    else .buffering { task.ctx.common with queue := task.entries.map queueEntryToMediaRef }
  | .alwaysAppend =>
    if task.entries.isEmpty then .error "no playable items to append" task.ctx.common
    else task.ctx.statusWithCommon { task.ctx.common with
      queue := task.ctx.queueSnapshot ++ task.entries.map queueEntryToMediaRef }

end Task

structure Delivery where
  task : Nat
  mode : DeliveryMode

/-- An acknowledgement with what its dispatch resolved, and the queue as it is once all that was sent
by then is handled. -/
structure Acked where
  task : Nat
  mode : DeliveryMode
  entries : List QueueEntry
  status : PlayerStatus
  after : List MediaRef

structure Player where
  app : App Queued
  /-- The actions that the ui loop has yet to handle. -/
  actionTx : List AppAction
  tasks : List Task
  acks : List Acked
  requests : Nat
  deliveries : List Delivery

namespace Player

def settled (s : Player) : App Queued :=
  s.actionTx.foldl (fun app action => action.handle app) s.app

def send (s : Player) (actions : List AppAction) : Player :=
  { s with actionTx := s.actionTx ++ actions }

def acknowledge (s : Player) (task : Task) (status : PlayerStatus) : Player :=
  { s with acks := s.acks ++
      [⟨task.id, task.mode, task.entries, status, s.settled.queue.map Queued.ref⟩] }

/-- The loop from where it looks at the next item: up to the next import, or to the end. -/
def advance (s : Player) (task : Task) : Player :=
  let (settledPreviews, next) := Task.nextItem task.queuedHashes task.items
  let s := s.send settledPreviews
  match next with
  | some (item, rest) =>
    { s with tasks := { task with
        importing := some item
        items := rest
        queuedHashes := item.blake3Hash :: task.queuedHashes } :: s.tasks }
  | none => s.acknowledge task task.status

def begin (s : Player) (task : Task) : Player :=
  if task.items.isEmpty then s.acknowledge task task.ctx.statusAck
  else (s.send [.pairingQueuePending task.items]).advance { task with queuedHashes := task.seed }

def resume (s : Player) (task : Task) (item : MediaRef) (outcome : Option ImportedMedia) : Player :=
  match outcome with
  | some imported =>
    let entry := mediaRefToQueueEntry item imported
    let since := if task.Unsent then s.deliveries.length else task.since
    let s := s.send [task.delivery entry, .pairingQueuePreviewSettled item.blake3Hash,
      .pairingItemResolved item.blake3Hash]
    let s : Player := { s with deliveries := s.deliveries ++ [⟨task.id, task.mode⟩] }
    s.advance { task with sentFirst := true, entries := task.entries ++ [entry], since }
  | none =>
    (s.send [.pairingQueuePreviewSettled item.blake3Hash,
      .pairingItemUnresolved item.blake3Hash item.sourcePeerAddr]).advance task

end Player

/-- What happens next: a request comes in, a task goes on (with the outcome of the import that it
awaits), or the ui loop handles an action. -/
inductive Act where
  | request (mode : DeliveryMode) (items : List MediaRef) (isPlaying : Bool) (positionMs : Nat)
  | poll (id : Nat) (outcome : Option ImportedMedia)
  | handle

namespace Player

def step : Act → Player → Player
  | .request mode items isPlaying positionMs, s =>
    { s with
      tasks := {
        id := s.requests
        mode
        ctx := .of Queued.ref s.app isPlaying positionMs
        importing := none
        items
        queuedHashes := []
        sentFirst := false
        entries := []
        since := s.deliveries.length } :: s.tasks
      requests := s.requests + 1 }
  | .poll id outcome, s =>
    match s.tasks.find? (·.id = id) with
    | none => s
    | some task =>
      let s := { s with tasks := s.tasks.filter (·.id ≠ id) }
      match task.importing with
      | none => s.begin task
      | some item => s.resume task item outcome
  | .handle, s =>
    match s.actionTx with
    | [] => s
    | action :: rest => { s with app := action.handle s.app, actionTx := rest }

def start (app : App Queued) : Player where
  app
  actionTx := []
  tasks := []
  acks := []
  requests := 0
  deliveries := []

end Player

end Tomb.Rathole
