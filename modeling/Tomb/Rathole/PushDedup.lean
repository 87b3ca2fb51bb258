import Tomb.Lib.Runs
import Tomb.Rathole.Dispatch

/-! Pushes from several dispatches at once: when the queue holds no content twice, when a replaced
queue holds nothing older, and when an acknowledgement tells the queue as it is. -/
namespace Tomb.Rathole
open Tomb.Lib

def Acked.Replaced (ack : Acked) : Prop :=
  ack.mode = .replaceFirstThenAppend ∧ ack.entries ≠ []

/-- No content is queued twice; a finished replace that resolved anything leaves nothing in the queue
that was there before it or comes from an earlier dispatch; and every acknowledgement told the queue
after its dispatch. -/
structure Contract (s : Player) : Prop where
  distinct : (s.app.queue.map Queued.hash).Nodup
  replaced : ∀ ack ∈ s.acks, ack.Replaced → ∀ queued ∈ s.settled.queue,
    ∃ batch, queued.batch = some batch ∧ ack.task ≤ batch
  acknowledged : ∀ ack ∈ s.acks, ack.status.common.queue = ack.after

namespace Task

/-- No other dispatch has delivered since an append took its snapshot, or since a replace made its
first delivery; before that, no replace requested later has delivered. -/
@[grind =] def Clean (task : Task) (deliveries : List Delivery) : Prop :=
  if task.Unsent then
    ∀ delivery ∈ deliveries, delivery.mode = .replaceFirstThenAppend → delivery.task < task.id
  else ∀ delivery ∈ deliveries.drop task.since, delivery.task = task.id

instance (task : Task) (deliveries : List Delivery) : Decidable (task.Clean deliveries) := by
  unfold Clean
  infer_instance

def Delivers (task : Task) (outcome : Option ImportedMedia) : Prop :=
  task.Unsent → match task.importing with
    | none => task.items ≠ []
    | some _ => outcome.isSome ∨ (nextItem task.queuedHashes task.items).2.isSome

instance (task : Task) (outcome : Option ImportedMedia) : Decidable (task.Delivers outcome) := by
  unfold Delivers
  split <;> infer_instance

end Task

/-- An append takes its snapshot while the radio is off and no delivery is on its way; a task goes on
only while it is clean, and a replace ends without having replaced anything only while the queue is
as in its snapshot. -/
def Act.Allowed : Act → Player → Prop
  | .request .alwaysAppend _ _ _, s =>
    s.app.radio = none ∧ ∀ action ∈ s.actionTx, action.delivers = false
  | .request .replaceFirstThenAppend _ _ _, _ => True
  | .poll id outcome, s => ∀ task ∈ s.tasks, task.id = id →
      task.Clean s.deliveries ∧
        (task.Delivers outcome ∨ task.ctx.queueSnapshot = s.settled.queue.map Queued.ref)
  | .handle, _ => True

instance (act : Act) (s : Player) : Decidable (act.Allowed s) := by
  unfold Act.Allowed
  split <;> infer_instance

/-! What actions do to the queue. -/

theorem AppAction.handle_quiet {action : AppAction} (quiet : action.delivers = false)
    (app : App Queued) :
    (action.handle app).queue = app.queue ∧ (action.handle app).current = app.current ∧
      (action.handle app).radio = app.radio := by
  cases action with
  | pairingReplaceQueue entries => cases quiet
  | pairingAppendQueue entries => cases quiet
  | pairingItemUnresolved blake3Hash sourcePeerAddr =>
    simp only [handle]
    split <;> exact ⟨rfl, rfl, rfl⟩
  | _ => exact ⟨rfl, rfl, rfl⟩

variable {app : App Queued}

theorem AppAction.aligned_handle (action : AppAction) (aligned : app.Aligned) :
    (action.handle app).Aligned := by
  cases action with
  | pairingReplaceQueue entries =>
    simp only [handle]
    split
    · exact aligned
    · exact App.aligned_playIndex _ _
  | pairingAppendQueue entries => exact App.aligned_appendQueueEntries aligned entries
  | pairingItemUnresolved blake3Hash sourcePeerAddr =>
    simp only [handle]
    split <;> exact aligned
  | _ => exact aligned

def handleAll (actions : List AppAction) (app : App Queued) : App Queued :=
  actions.foldl (fun app action => action.handle app) app

theorem handleAll_append (first second : List AppAction) (app : App Queued) :
    handleAll (first ++ second) app = handleAll second (handleAll first app) :=
  List.foldl_append

theorem handleAll_quiet {actions : List AppAction}
    (quiet : ∀ action ∈ actions, action.delivers = false) (app : App Queued) :
    (handleAll actions app).queue = app.queue ∧ (handleAll actions app).current = app.current ∧
      (handleAll actions app).radio = app.radio := by
  induction actions generalizing app with
  | nil => exact ⟨rfl, rfl, rfl⟩
  | cons action rest ih =>
    obtain ⟨first, rest'⟩ := List.forall_mem_cons.mp quiet
    obtain ⟨queue, current, radio⟩ := ih rest' (action.handle app)
    obtain ⟨queue', current', radio'⟩ := AppAction.handle_quiet first app
    exact ⟨queue.trans queue', current.trans current', radio.trans radio'⟩

theorem aligned_handleAll (actions : List AppAction) (aligned : app.Aligned) :
    (handleAll actions app).Aligned := by
  induction actions generalizing app with
  | nil => exact aligned
  | cons action rest ih => exact ih (action.aligned_handle aligned)

theorem Player.settled_eq (s : Player) : s.settled = handleAll s.actionTx s.app := rfl

theorem Player.settled_send (s : Player) (actions : List AppAction) :
    (s.send actions).settled = handleAll actions s.settled :=
  handleAll_append _ _ _

theorem Task.nextItem_spec (queuedHashes : List String) (items : List MediaRef) :
    (∀ action ∈ (nextItem queuedHashes items).1, action.delivers = false) ∧
      ∀ item rest, (nextItem queuedHashes items).2 = some (item, rest) →
        item.blake3Hash ∉ queuedHashes := by
  induction items with
  | nil => simp [nextItem]
  | cons first rest ih =>
    rw [nextItem]
    split
    · refine ⟨?_, ih.2⟩
      intro action member
      rcases List.mem_cons.mp member with rfl | member
      · rfl
      · exact ih.1 action member
    · rename_i fresh
      refine ⟨by simp, ?_⟩
      intro item rest same
      cases same
      exact fresh

namespace Task

@[grind =] def base (task : Task) : List MediaRef :=
  match task.mode with
  | .alwaysAppend => task.ctx.queueSnapshot
  | .replaceFirstThenAppend => []

/-- What holds of a task whatever the others do: its place among the requests and deliveries. -/
structure Placed (task : Task) (requests : Nat) (deliveries : List Delivery) : Prop where
  young : task.id < requests
  since_le : task.since ≤ deliveries.length
  since : ∀ delivery ∈ deliveries.take task.since,
    delivery.mode = .replaceFirstThenAppend → delivery.task < task.id
  idle : task.Unsent → task.entries = []
  sent : task.mode = .replaceFirstThenAppend → task.sentFirst = true → task.entries ≠ [] ∧
    ∃ delivery ∈ deliveries, delivery.task = task.id ∧ delivery.mode = .replaceFirstThenAppend

structure Rests (task : Task) : Prop where
  unbegun : task.importing = none → task.sentFirst = false ∧ task.entries = []
  awaited : ∀ item, task.importing = some item → item.blake3Hash ∈ task.queuedHashes

structure Views (task : Task) (queue : List Queued) : Prop where
  view : queue.map Queued.ref = task.base ++ task.entries.map queueEntryToMediaRef
  owned : task.mode = .replaceFirstThenAppend → ∀ queued ∈ queue, queued.batch = some task.id

/-- A task that views the queue also knows that the item it awaits is not queued. -/
structure Sees (task : Task) (queue : List Queued) : Prop extends task.Views queue where
  known : ∀ item, task.importing = some item → ∀ queued ∈ queue, queued.hash ∈ task.queuedHashes
  missing : ∀ item, task.importing = some item → item.blake3Hash ∉ queue.map Queued.hash

end Task

structure Inv (s : Player) : Prop where
  aligned : s.settled.Aligned
  distinct : ∀ handled later, s.actionTx = handled ++ later →
    ((handleAll handled s.app).queue.map Queued.hash).Nodup
  ids : (s.tasks.map Task.id).Nodup
  placed : ∀ task ∈ s.tasks, task.Placed s.requests s.deliveries
  rests : ∀ task ∈ s.tasks, task.Rests
  sees : ∀ task ∈ s.tasks, task.Clean s.deliveries → ¬ task.Unsent → task.Sees s.settled.queue
  issued : ∀ delivery ∈ s.deliveries, delivery.task < s.requests
  replaced : ∀ ack ∈ s.acks, ack.Replaced → ∀ queued ∈ s.settled.queue,
    ∃ batch, queued.batch = some batch ∧ ack.task ≤ batch
  delivered : ∀ ack ∈ s.acks, ack.Replaced → ∃ delivery ∈ s.deliveries,
    delivery.task = ack.task ∧ delivery.mode = .replaceFirstThenAppend
  acknowledged : ∀ ack ∈ s.acks, ack.status.common.queue = ack.after

namespace Inv

variable {s : Player}

theorem contract (inv : Inv s) : Contract s where
  distinct := inv.distinct [] s.actionTx rfl
  replaced := inv.replaced
  acknowledged := inv.acknowledged

theorem start {app : App Queued} (aligned : app.Aligned)
    (distinct : (app.queue.map Queued.hash).Nodup) : Inv (Player.start app) where
  aligned := aligned
  distinct handled later split := by
    rw [(List.append_eq_nil_iff.mp split.symm).1]
    exact distinct
  ids := List.nodup_nil
  placed _ member := by cases member
  rests _ member := by cases member
  sees _ member := by cases member
  issued _ member := by cases member
  replaced _ member := by cases member
  delivered _ member := by cases member
  acknowledged _ member := by cases member

theorem drop (inv : Inv s) (id : Nat) :
    Inv { s with tasks := s.tasks.filter (·.id ≠ id) } where
  aligned := inv.aligned
  distinct := inv.distinct
  ids := inv.ids.sublist (List.filter_sublist.map _)
  placed task member := inv.placed task (List.mem_of_mem_filter member)
  rests task member := inv.rests task (List.mem_of_mem_filter member)
  sees task member := inv.sees task (List.mem_of_mem_filter member)
  issued := inv.issued
  replaced := inv.replaced
  delivered := inv.delivered
  acknowledged := inv.acknowledged

theorem add (inv : Inv s) {task : Task} (fresh : task.id ∉ s.tasks.map Task.id)
    (placed : task.Placed s.requests s.deliveries) (rests : task.Rests)
    (sees : task.Clean s.deliveries → ¬ task.Unsent → task.Sees s.settled.queue) :
    Inv { s with tasks := task :: s.tasks } where
  aligned := inv.aligned
  distinct := inv.distinct
  ids := List.nodup_cons.mpr ⟨fresh, inv.ids⟩
  placed := List.forall_mem_cons.mpr ⟨placed, inv.placed⟩
  rests := List.forall_mem_cons.mpr ⟨rests, inv.rests⟩
  sees := List.forall_mem_cons.mpr ⟨sees, inv.sees⟩
  issued := inv.issued
  replaced := inv.replaced
  delivered := inv.delivered
  acknowledged := inv.acknowledged

theorem send (inv : Inv s) {actions : List AppAction}
    (quiet : ∀ action ∈ actions, action.delivers = false) : Inv (s.send actions) := by
  have queue : (s.send actions).settled.queue = s.settled.queue := by
    rw [s.settled_send]
    exact (handleAll_quiet quiet _).1
  constructor
  · rw [s.settled_send]
    exact aligned_handleAll actions inv.aligned
  · intro handled later split
    rcases List.append_eq_append_iff.mp split with ⟨more, rfl, sent⟩ | ⟨more, waiting, rfl⟩
    · have quiet' : ∀ action ∈ more, action.delivers = false := fun action member =>
        quiet action (sent ▸ List.mem_append_left _ member)
      change ((handleAll (s.actionTx ++ more) s.app).queue.map Queued.hash).Nodup
      rw [handleAll_append, (handleAll_quiet quiet' _).1]
      exact inv.distinct s.actionTx [] (List.append_nil _).symm
    · exact inv.distinct handled more waiting
  · exact inv.ids
  · exact inv.placed
  · exact inv.rests
  · rw [queue]
    exact inv.sees
  · exact inv.issued
  · rw [queue]
    exact inv.replaced
  · exact inv.delivered
  · exact inv.acknowledged

theorem acknowledge (inv : Inv s) {task : Task} {status : PlayerStatus}
    (same : status.common.queue = s.settled.queue.map Queued.ref)
    (replaced : task.mode = .replaceFirstThenAppend → task.entries ≠ [] →
      (∀ queued ∈ s.settled.queue, queued.batch = some task.id) ∧
        ∃ delivery ∈ s.deliveries, delivery.task = task.id ∧
          delivery.mode = .replaceFirstThenAppend) :
    Inv (s.acknowledge task status) where
  aligned := inv.aligned
  distinct := inv.distinct
  ids := inv.ids
  placed := inv.placed
  rests := inv.rests
  sees := inv.sees
  issued := inv.issued
  replaced ack member replaces queued here := by
    rcases List.mem_append.mp member with member | member
    · exact inv.replaced ack member replaces queued here
    · cases List.mem_singleton.mp member
      exact ⟨task.id, (replaced replaces.1 replaces.2).1 queued here, le_rfl⟩
  delivered ack member replaces := by
    rcases List.mem_append.mp member with member | member
    · exact inv.delivered ack member replaces
    · cases List.mem_singleton.mp member
      exact (replaced replaces.1 replaces.2).2
  acknowledged ack member := by
    rcases List.mem_append.mp member with member | member
    · exact inv.acknowledged ack member
    · cases List.mem_singleton.mp member
      exact same

end Inv

/-! One delivery. -/

theorem Task.queue_delivery (task : Task) (entry : QueueEntry) (aligned : app.Aligned) :
    ((task.delivery entry).handle app).queue =
      (if task.Unsent then [] else app.queue) ++ [⟨entry, some task.id⟩] := by
  unfold delivery
  split
  · exact App.queue_setQueueEntries app [⟨entry, some task.id⟩]
  · exact App.queue_appendQueueEntries aligned _

variable {task : Task} {deliveries : List Delivery}

theorem Task.Clean.unsent {delivery : Delivery}
    (clean : task.Clean (deliveries ++ [delivery])) (other : delivery.task ≠ task.id)
    (since : task.since ≤ deliveries.length) : task.Unsent := by
  by_contra owns
  rw [Clean, if_neg owns, List.drop_append_of_le_length since] at clean
  exact other (clean delivery (List.mem_append_right _ (List.mem_singleton_self _)))

/-- A clean task was requested after every replace that has delivered, but for itself. -/
theorem Task.Clean.le {requests : Nat}
    (clean : task.Clean deliveries) (placed : task.Placed requests deliveries)
    {delivery : Delivery} (member : delivery ∈ deliveries)
    (replaces : delivery.mode = .replaceFirstThenAppend) : delivery.task ≤ task.id := by
  unfold Clean at clean
  split at clean
  · exact (clean delivery member replaces).le
  · rw [← List.take_append_drop task.since deliveries] at member
    rcases List.mem_append.mp member with member | member
    · exact (placed.since delivery member replaces).le
    · exact (clean delivery member).le

theorem Task.Placed.push {requests : Nat}
    (placed : task.Placed requests deliveries) (delivery : Delivery) :
    task.Placed requests (deliveries ++ [delivery]) where
  young := placed.young
  since_le := placed.since_le.trans (by simp)
  since := by
    rw [List.take_append_of_le_length placed.since_le]
    exact placed.since
  idle := placed.idle
  sent replaces sent := by
    obtain ⟨some, earlier, member, same⟩ := placed.sent replaces sent
    exact ⟨some, earlier, List.mem_append_left _ member, same⟩

@[grind =] def Player.push (s : Player) (task : Task) (entry : QueueEntry) : Player :=
  { s.send [task.delivery entry] with
    deliveries := s.deliveries ++ [⟨task.id, task.mode⟩] }

theorem Player.queue_push {s : Player} (inv : Inv s) (task : Task) (entry : QueueEntry) :
    (s.push task entry).settled.queue =
      (if task.Unsent then [] else s.settled.queue) ++ [⟨entry, some task.id⟩] := by
  rw [← task.queue_delivery entry inv.aligned]
  exact congrArg App.queue (s.settled_send [task.delivery entry])

theorem Inv.push {s : Player} (inv : Inv s) {entry : QueueEntry}
    (fresh : task.id ∉ s.tasks.map Task.id) (placed : task.Placed s.requests s.deliveries)
    (clean : task.Clean s.deliveries) (new : ¬ task.Unsent →
      (queueEntryToMediaRef entry).blake3Hash ∉ s.settled.queue.map Queued.hash) :
    Inv (s.push task entry) := by
  have queue := Player.queue_push inv task entry
  have settled : (s.push task entry).settled = handleAll [task.delivery entry] s.settled :=
    s.settled_send _
  constructor
  · rw [settled]
    exact aligned_handleAll _ inv.aligned
  · intro handled later split
    rcases List.append_eq_append_iff.mp split with ⟨more, rfl, sent⟩ | ⟨more, waiting, rfl⟩
    · cases more with
      | nil =>
        rw [List.append_nil]
        exact inv.distinct s.actionTx [] (List.append_nil _).symm
      | cons action rest =>
        obtain ⟨rfl, empty⟩ := List.cons.inj sent
        obtain ⟨rfl, rfl⟩ := List.append_eq_nil_iff.mp empty.symm
        change ((s.push task entry).settled.queue.map Queued.hash).Nodup
        rw [queue]
        split
        · simp
        · rename_i owns
          have whole := inv.distinct s.actionTx [] (List.append_nil _).symm
          rw [List.map_append, List.nodup_append]
          refine ⟨whole, by simp, ?_⟩
          intro hash here other there same
          rw [List.map_singleton, List.mem_singleton] at there
          subst there same
          exact new owns here
    · exact inv.distinct handled more waiting
  · exact inv.ids
  · intro other member
    exact (inv.placed other member).push _
  · exact inv.rests
  · intro other member still owns
    have differs : task.id ≠ other.id := fun same => fresh (same ▸ List.mem_map_of_mem member)
    exact absurd (still.unsent differs (inv.placed other member).since_le) owns
  · intro delivery member
    rcases List.mem_append.mp member with member | member
    · exact inv.issued delivery member
    · cases List.mem_singleton.mp member
      exact placed.young
  · intro ack member replaces queued here
    obtain ⟨delivery, delivered, same, mode⟩ := inv.delivered ack member replaces
    rw [queue] at here
    rcases List.mem_append.mp here with here | here
    · split at here
      · cases here
      · exact inv.replaced ack member replaces queued here
    · cases List.mem_singleton.mp here
      exact ⟨task.id, rfl, same ▸ clean.le placed delivered mode⟩
  · intro ack member replaces
    obtain ⟨delivery, delivered, same⟩ := inv.delivered ack member replaces
    exact ⟨delivery, List.mem_append_left _ delivered, same⟩
  · exact inv.acknowledged

/-! The loop of a dispatch. -/

theorem Task.status_queue (task : Task)
    (some : task.mode = .replaceFirstThenAppend → task.entries ≠ []) :
    task.status.common.queue = task.base ++ task.entries.map queueEntryToMediaRef := by
  unfold status base
  cases mode : task.mode with
  | alwaysAppend =>
    cases entries : task.entries with
    | nil => simp [PlayerStatus.common, DispatchContext.common]
    | cons first rest => simp
  | replaceFirstThenAppend =>
    have filled := some mode
    simp [filled, PlayerStatus.common]

theorem Task.status_queue_nil (nothing : task.entries = []) :
    task.status.common.queue = task.ctx.queueSnapshot := by
  unfold status
  cases task.mode <;> simp [nothing, PlayerStatus.common, DispatchContext.common]

structure Task.Ready (task : Task) (s : Player) : Prop where
  fresh : task.id ∉ s.tasks.map Task.id
  placed : task.Placed s.requests s.deliveries
  views : ¬ task.Unsent → task.Views s.settled.queue
  known : ¬ task.Unsent → ∀ queued ∈ s.settled.queue, queued.hash ∈ task.queuedHashes
  continues : task.Unsent → (nextItem task.queuedHashes task.items).2.isSome ∨
    task.ctx.queueSnapshot = s.settled.queue.map Queued.ref

theorem Task.Ready.send {s : Player} (ready : task.Ready s)
    {actions : List AppAction} (quiet : ∀ action ∈ actions, action.delivers = false) :
    task.Ready (s.send actions) := by
  have queue : (s.send actions).settled.queue = s.settled.queue := by
    rw [s.settled_send]
    exact (handleAll_quiet quiet _).1
  refine ⟨ready.fresh, ready.placed, ?_, ?_, ?_⟩
  · rw [queue]
    exact ready.views
  · rw [queue]
    exact ready.known
  · rw [queue]
    exact ready.continues

theorem Inv.advance {s : Player} (inv : Inv s) (ready : task.Ready s) : Inv (s.advance task) := by
  obtain ⟨quiet, unqueued⟩ := Task.nextItem_spec task.queuedHashes task.items
  have sent := inv.send quiet
  have ready' := ready.send quiet
  unfold Player.advance
  cases next : (Task.nextItem task.queuedHashes task.items).2 with
  | some pair =>
    obtain ⟨item, rest⟩ := pair
    simp only [next]
    have placed := ready'.placed
    refine sent.add ready'.fresh ⟨placed.young, placed.since_le, placed.since, placed.idle,
      placed.sent⟩ ⟨?_, ?_⟩ ?_
    · intro unbegun
      cases unbegun
    · intro awaited same
      cases same
      exact List.mem_cons_self
    · intro clean owns
      have views := ready'.views owns
      refine ⟨⟨views.view, views.owned⟩, ?_, ?_⟩
      · intro awaited same queued member
        exact List.mem_cons_of_mem _ (ready'.known owns queued member)
      · intro awaited same here
        cases same
        obtain ⟨queued, member, hash⟩ := List.mem_map.mp here
        exact unqueued item rest next (hash ▸ ready'.known owns queued member)
  | none =>
    simp only [next]
    by_cases unsent : task.Unsent
    · have nothing := ready.placed.idle unsent
      have same := (ready'.continues unsent).resolve_left (by simp [next])
      refine sent.acknowledge ?_ ?_
      · rw [Task.status_queue_nil nothing, same]
      · intro replaces some
        exact absurd nothing some
    · have views := ready'.views unsent
      have delivered (replaces : task.mode = .replaceFirstThenAppend) :=
        ready'.placed.sent replaces (by
          cases sentFirst : task.sentFirst with
          | true => rfl
          | false => exact absurd ⟨replaces, sentFirst⟩ unsent)
      refine sent.acknowledge ?_ ?_
      · rw [views.view]
        exact task.status_queue fun replaces => (delivered replaces).1
      · intro replaces some
        exact ⟨views.owned replaces, (delivered replaces).2⟩

theorem Player.resume_some (s : Player) (task : Task) (item : MediaRef) (imported : ImportedMedia) :
    s.resume task item (some imported) =
      ((s.push task (mediaRefToQueueEntry item imported)).send
        [.pairingQueuePreviewSettled item.blake3Hash, .pairingItemResolved item.blake3Hash]).advance
        { task with
          sentFirst := true
          entries := task.entries ++ [mediaRefToQueueEntry item imported]
          since := if task.Unsent then s.deliveries.length else task.since } := by
  simp [resume, push, send]

theorem Task.Ready.pushed {s : Player} (inv : Inv s) {entry : QueueEntry}
    (fresh : task.id ∉ s.tasks.map Task.id) (placed : task.Placed s.requests s.deliveries)
    (clean : task.Clean s.deliveries) (views : ¬ task.Unsent → task.Views s.settled.queue)
    (known : ¬ task.Unsent → ∀ queued ∈ s.settled.queue, queued.hash ∈ task.queuedHashes)
    (awaited : (queueEntryToMediaRef entry).blake3Hash ∈ task.queuedHashes) :
    { task with
      sentFirst := true
      entries := task.entries ++ [entry]
      since := if task.Unsent then s.deliveries.length else task.since }.Ready
      (s.push task entry) := by
  have queue := Player.queue_push inv task entry
  refine ⟨fresh, ⟨placed.young, ?_, ?_, ?_, ?_⟩, ?_, ?_, ?_⟩
  · simp only [Player.push, List.length_append]
    split
    · omega
    · exact placed.since_le.trans (Nat.le_add_right _ _)
  · simp only [Player.push]
    split
    · rename_i unsent
      rw [List.take_left']
      · rw [Clean, if_pos unsent] at clean
        exact clean
      · rfl
    · rw [List.take_append_of_le_length placed.since_le]
      exact placed.since
  · rintro ⟨-, unsent⟩
    cases unsent
  · intro replaces sent
    exact ⟨by simp, ⟨task.id, task.mode⟩, List.mem_append_right _ (List.mem_singleton_self _),
      rfl, replaces⟩
  · intro owns
    by_cases unsent : task.Unsent
    · have idle := placed.idle unsent
      rw [if_pos unsent] at queue
      rw [queue]
      refine ⟨?_, ?_⟩
      · simp [base, unsent.1, idle, Queued.ref]
      · intro replaces queued member
        cases List.mem_singleton.mp member
        rfl
    · have before := views unsent
      rw [if_neg unsent] at queue
      rw [queue]
      refine ⟨?_, ?_⟩
      · rw [List.map_append, before.view]
        simp [base, Queued.ref]
      · intro replaces queued member
        rcases List.mem_append.mp member with member | member
        · exact before.owned replaces queued member
        · cases List.mem_singleton.mp member
          rfl
  · intro owns queued member
    rw [queue] at member
    rcases List.mem_append.mp member with member | member
    · split at member
      · cases member
      · rename_i unsent
        exact known unsent queued member
    · cases List.mem_singleton.mp member
      exact awaited
  · rintro ⟨-, unsent⟩
    cases unsent

section

variable {s : Player} {task : Task}

theorem Inv.resume (inv : Inv s) {item : MediaRef} {outcome : Option ImportedMedia}
    (fresh : task.id ∉ s.tasks.map Task.id) (placed : task.Placed s.requests s.deliveries)
    (rests : task.Rests) (clean : task.Clean s.deliveries)
    (sees : ¬ task.Unsent → task.Sees s.settled.queue)
    (delivers : task.Delivers outcome ∨ task.ctx.queueSnapshot = s.settled.queue.map Queued.ref)
    (awaits : task.importing = some item) : Inv (s.resume task item outcome) := by
  have views (owns : ¬ task.Unsent) := (sees owns).toViews
  have known (owns : ¬ task.Unsent) := (sees owns).known item awaits
  cases outcome with
  | none =>
    have quiet : ∀ action ∈ [AppAction.pairingQueuePreviewSettled item.blake3Hash,
        .pairingItemUnresolved item.blake3Hash item.sourcePeerAddr],
        action.delivers = false := by simp [AppAction.delivers]
    have ready : task.Ready s := by
      refine ⟨fresh, placed, views, known, ?_⟩
      intro unsent
      rcases delivers with delivers | same
      · have more := delivers unsent
        rw [awaits] at more
        exact .inl (more.resolve_left (by simp))
      · exact .inr same
    exact (inv.send quiet).advance (ready.send quiet)
  | some imported =>
    have hash := mediaRefToQueueEntry_hash item imported
    have quiet : ∀ action ∈ [AppAction.pairingQueuePreviewSettled item.blake3Hash,
        .pairingItemResolved item.blake3Hash],
        action.delivers = false := by simp [AppAction.delivers]
    rw [Player.resume_some]
    have pushed : Inv (s.push task (mediaRefToQueueEntry item imported)) := by
      refine inv.push fresh placed clean ?_
      intro owns
      rw [hash]
      exact (sees owns).missing item awaits
    have ready := Task.Ready.pushed inv fresh placed clean views known
      (hash.symm ▸ rests.awaited item awaits)
    exact (pushed.send quiet).advance (ready.send quiet)

theorem Inv.begin (inv : Inv s) {outcome : Option ImportedMedia}
    (fresh : task.id ∉ s.tasks.map Task.id) (placed : task.Placed s.requests s.deliveries)
    (rests : task.Rests) (sees : ¬ task.Unsent → task.Sees s.settled.queue)
    (delivers : task.Delivers outcome ∨ task.ctx.queueSnapshot = s.settled.queue.map Queued.ref)
    (unbegun : task.importing = none) :
    Inv (s.begin task) := by
  obtain ⟨sentFirst, entries⟩ := rests.unbegun unbegun
  have appends (owns : ¬ task.Unsent) : task.mode = .alwaysAppend := by
    cases mode : task.mode with
    | alwaysAppend => rfl
    | replaceFirstThenAppend => exact absurd ⟨mode, sentFirst⟩ owns
  have view (owns : ¬ task.Unsent) : s.settled.queue.map Queued.ref = task.ctx.queueSnapshot := by
    simpa [Task.base, appends owns, entries] using (sees owns).view
  unfold Player.begin
  split
  · rename_i nothing
    have same : task.ctx.queueSnapshot = s.settled.queue.map Queued.ref := by
      by_cases unsent : task.Unsent
      · refine delivers.resolve_left fun delivers => ?_
        have some := delivers unsent
        rw [unbegun] at some
        exact some (List.isEmpty_iff.mp nothing)
      · exact (view unsent).symm
    refine inv.acknowledge ?_ ?_
    · rw [← same, DispatchContext.statusAck, DispatchContext.statusWithCommon_common]
      rfl
    · intro replaces some
      exact absurd entries some
  · rename_i items
    have quiet : ∀ action ∈ [AppAction.pairingQueuePending task.items],
        action.delivers = false := by simp [AppAction.delivers]
    have ready : { task with queuedHashes := task.seed }.Ready s := by
      refine ⟨fresh, ⟨placed.young, placed.since_le, placed.since, placed.idle, placed.sent⟩,
        ?_, ?_, ?_⟩
      · intro owns
        exact ⟨(sees owns).view, (sees owns).owned⟩
      · intro owns queued member
        simp only [Task.seed, appends owns]
        rw [← view owns, List.map_map]
        exact List.mem_map_of_mem member
      · intro unsent
        have replaces : task.mode = .replaceFirstThenAppend := unsent.1
        cases next : task.items with
        | nil => simp [next] at items
        | cons first rest =>
          left
          simp [Task.seed, replaces, Task.nextItem]
    exact (inv.send quiet).advance (ready.send quiet)

end

theorem Inv.step {s : Player} (inv : Inv s) (act : Act) (allowed : act.Allowed s) :
    Inv (s.step act) := by
  cases act with
  | request mode items isPlaying positionMs =>
    have fresh : s.requests ∉ s.tasks.map Task.id := by
      intro member
      obtain ⟨task, member, same⟩ := List.mem_map.mp member
      exact absurd (inv.placed task member).young (by omega)
    have waits : Inv { s with requests := s.requests + 1 } := by
      refine ⟨inv.aligned, inv.distinct, inv.ids, ?_, inv.rests, inv.sees, ?_, inv.replaced,
        inv.delivered, inv.acknowledged⟩
      · intro task member
        obtain ⟨young, since_le, since, idle, sent⟩ := inv.placed task member
        exact ⟨young.trans (Nat.lt_succ_self _), since_le, since, idle, sent⟩
      · intro delivery member
        exact (inv.issued delivery member).trans (Nat.lt_succ_self _)
    refine waits.add fresh ⟨Nat.lt_succ_self _, le_rfl, ?_, fun _ => rfl, ?_⟩ ⟨?_, ?_⟩ ?_
    · intro delivery member replaces
      exact inv.issued delivery (List.mem_of_mem_take member)
    · intro replaces sent
      cases sent
    · intro unbegun
      exact ⟨rfl, rfl⟩
    · intro item awaits
      cases awaits
    · intro clean owns
      cases mode with
      | replaceFirstThenAppend => exact absurd ⟨rfl, rfl⟩ owns
      | alwaysAppend =>
        obtain ⟨radio, quiet⟩ := allowed
        obtain ⟨queue, current, -⟩ := handleAll_quiet quiet s.app
        have aligned : s.app.Aligned := by
          have aligned := inv.aligned
          rw [s.settled_eq, App.Aligned, queue, current] at aligned
          exact aligned
        refine ⟨⟨?_, ?_⟩, ?_, ?_⟩
        · simp only [Task.base, List.map_nil, List.append_nil]
          rw [DispatchContext.queueSnapshot_of aligned radio]
          exact congrArg (List.map Queued.ref) queue
        · intro replaces
          cases replaces
        · intro item awaits
          cases awaits
        · intro item awaits
          cases awaits
  | poll id outcome =>
    simp only [Player.step]
    cases found : s.tasks.find? (·.id = id) with
    | none => exact inv
    | some task =>
      have member := List.mem_of_find?_eq_some found
      have same : task.id = id := by simpa using List.find?_some found
      obtain ⟨clean, delivers⟩ := allowed task member same
      have fresh : task.id ∉ (s.tasks.filter (·.id ≠ id)).map Task.id := by
        intro here
        obtain ⟨other, here, is⟩ := List.mem_map.mp here
        have differs := (List.mem_filter.mp here).2
        simp [is, same] at differs
      have sees := inv.sees task member clean
      have placed := inv.placed task member
      have rests := inv.rests task member
      cases awaits : task.importing with
      | none =>
        simp only [awaits]
        exact (inv.drop id).begin fresh placed rests sees delivers awaits
      | some item =>
        simp only [awaits]
        exact (inv.drop id).resume fresh placed rests clean sees delivers awaits
  | handle =>
    simp only [Player.step]
    cases waiting : s.actionTx with
    | nil => exact inv
    | cons action rest =>
      have settled : { s with app := action.handle s.app, actionTx := rest }.settled =
          s.settled := by
        simp [Player.settled, waiting]
      refine ⟨?_, ?_, inv.ids, inv.placed, inv.rests, ?_, inv.issued, ?_, inv.delivered,
        inv.acknowledged⟩
      · rw [settled]
        exact inv.aligned
      · intro handled later split
        have split' : s.actionTx = (action :: handled) ++ later := by
          rw [waiting]
          exact congrArg (action :: ·) split
        exact inv.distinct (action :: handled) later split'
      · rw [settled]
        exact inv.sees
      · rw [settled]
        exact inv.replaced

def idle : App Queued where
  queue := []
  current := none
  history := []
  radio := none
  pendingPreviews := []
  unresolvedItems := []

def track : MediaRef where
  sourcePeerAddr := "controller"
  blake3Hash := "h"

end Tomb.Rathole
