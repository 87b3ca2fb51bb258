import Tomb.Lib.Runs
import Tomb.Grimoire.Radio.QueueEvents

/-! A subscriber that keeps a copy of a station's queue: it subscribes, takes a snapshot, and applies
the events that it has received since it subscribed. -/
namespace Tomb.Grimoire.Radio
open Tomb.Lib

structure Subscription where
  stationId : String
  received : List RadioQueueEvent
  snapshot : Option (List RadioQueuedRequestInfo)

/-- The queues with the calls on them: the request ids given out so far, and the events that the
calls in progress still have to emit, in the order in which these calls changed the queues. -/
structure QueueFeed where
  now : Nat
  issued : List String
  registry : Registry
  emitting : List RadioQueueEvent
  subscription : Option Subscription

inductive FeedOp where
  | tick (elapsed : Nat)
  | markActive (stationId : String)
  | markIdle (stationId : String)
  | list (stationId : String)
  | call (call : QueueCall)
  | emit (index : Nat)
  | subscribe (stationId : String)
  | snapshot

@[grind =] def Subscription.hear (event : RadioQueueEvent) (sub : Subscription) : Subscription :=
  if sub.stationId = event.stationId then { sub with received := sub.received ++ [event] } else sub

namespace QueueFeed

def issue (issued : List String) : QueueCall → List String
  | .submitRequest _ id _ _ _ => id :: issued
  | _ => issued

@[grind =] def call (call : QueueCall) (s : QueueFeed) : QueueFeed :=
  let changed := call.change s.now s.registry
  { s with
    issued := issue s.issued call
    registry := changed.2
    emitting := s.emitting ++ changed.1.toList }

def emit (index : Nat) (s : QueueFeed) : QueueFeed :=
  match s.emitting.drop index with
  | [] => s
  | event :: later => { s with
      emitting := s.emitting.take index ++ later
      subscription := s.subscription.map (Subscription.hear event) }

def snapshot (s : QueueFeed) : QueueFeed :=
  match s.subscription with
  | some ⟨stationId, received, none⟩ =>
    let taken := snapshotForStation s.now stationId s.registry
    { s with registry := taken.2, subscription := some ⟨stationId, received, some taken.1⟩ }
  | _ => s

def step : FeedOp → QueueFeed → QueueFeed
  | .tick elapsed, s => { s with now := s.now + elapsed }
  | .markActive stationId, s => { s with registry := Requests.markActive stationId s.registry }
  | .markIdle stationId, s => { s with registry := Requests.markIdle s.now stationId s.registry }
  | .list stationId, s => { s with registry := (Requests.list s.now stationId s.registry).2 }
  | .call change, s => s.call change
  | .emit index, s => s.emit index
  | .subscribe stationId, s => { s with subscription := some ⟨stationId, [], none⟩ }
  | .snapshot, s => s.snapshot

def start (now : Nat) : QueueFeed := ⟨now, [], fun _ => none, [], none⟩

/-- While no call is in progress on its station, the subscriber has exactly the server's queue. -/
def Replicated (s : QueueFeed) : Prop :=
  ∀ stationId received rows, s.subscription = some ⟨stationId, received, some rows⟩ →
    (∀ event ∈ s.emitting, event.stationId ≠ stationId) →
    (received.foldl applyEvent rows).map (·.id) =
      ((s.registry stationId).elim [] StationQueue.items).map (·.id)

@[grind =] def heard (stationId : String) : Option Subscription → List RadioQueueEvent
  | some sub => if sub.stationId = stationId then sub.received else []
  | none => []

@[grind =]
def snapshotOf (stationId : String) : Option Subscription → Option (List RadioQueuedRequestInfo)
  | some sub => if sub.stationId = stationId then sub.snapshot else none
  | none => none

@[grind =] def log (s : QueueFeed) (stationId : String) : List RadioQueueEvent :=
  heard stationId s.subscription ++ s.emitting.filter (·.stationId = stationId)

def Fresh : FeedOp → QueueFeed → Prop
  | .call (.submitRequest _ id _ _ _), s => id ∉ s.issued
  | _, _ => True

instance : (op : FeedOp) → (s : QueueFeed) → Decidable (Fresh op s)
  | .call (.submitRequest _ id _ _ _), s => inferInstanceAs (Decidable (id ∉ s.issued))
  | .call (.removeRequest _ _), _ => .isTrue trivial
  | .call (.reorderRequest _ _ _), _ => .isTrue trivial
  | .call (.clearRequests _), _ => .isTrue trivial
  | .call (.pickForStation _), _ => .isTrue trivial
  | .tick _, _ => .isTrue trivial
  | .markActive _, _ => .isTrue trivial
  | .markIdle _, _ => .isTrue trivial
  | .list _, _ => .isTrue trivial
  | .emit _, _ => .isTrue trivial
  | .subscribe _, _ => .isTrue trivial
  | .snapshot, _ => .isTrue trivial

/-- No request of the station expires now, or nobody has a copy of its queue or hears of its last
changes. -/
def Unexpired (s : QueueFeed) (stationId : String) : Prop :=
  (snapshotForStation s.now stationId s.registry).1 = queueInfos stationId s.registry ∨
    (s.log stationId = [] ∧ snapshotOf stationId s.subscription = none)

instance (s : QueueFeed) (stationId : String) : Decidable (s.Unexpired stationId) :=
  inferInstanceAs (Decidable (_ ∨ _))

/-- When an operation may happen: requests have new ids; the events of a station are emitted in the
order of its changes; nothing expires unseen; and a snapshot is taken while no reordering is
underway. -/
def Timely : FeedOp → QueueFeed → Prop
  | .list stationId, s => s.Unexpired stationId
  | .call (.submitRequest _ id _ _ _), s => id ∉ s.issued
  | .call (.pickForStation stationId), s => s.Unexpired stationId
  | .emit index, s => ∀ event ∈ s.emitting[index]?, ∀ earlier ∈ s.emitting.take index,
      earlier.stationId ≠ event.stationId
  | .snapshot, s => ∀ sub ∈ s.subscription, sub.snapshot = none → s.Unexpired sub.stationId ∧
      ∀ event ∈ s.log sub.stationId, event.isReordered = false
  | _, _ => True

instance : (op : FeedOp) → (s : QueueFeed) → Decidable (Timely op s)
  | .list stationId, s => inferInstanceAs (Decidable (s.Unexpired stationId))
  | .call (.submitRequest _ id _ _ _), s => inferInstanceAs (Decidable (id ∉ s.issued))
  | .call (.pickForStation stationId), s => inferInstanceAs (Decidable (s.Unexpired stationId))
  | .emit index, s => inferInstanceAs (Decidable (∀ event ∈ s.emitting[index]?,
      ∀ earlier ∈ s.emitting.take index, earlier.stationId ≠ event.stationId))
  | .snapshot, s => inferInstanceAs (Decidable (∀ sub ∈ s.subscription, sub.snapshot = none →
      s.Unexpired sub.stationId ∧ ∀ event ∈ s.log sub.stationId, event.isReordered = false))
  | .call (.removeRequest _ _), _ => .isTrue trivial
  | .call (.reorderRequest _ _ _), _ => .isTrue trivial
  | .call (.clearRequests _), _ => .isTrue trivial
  | .tick _, _ => .isTrue trivial
  | .markActive _, _ => .isTrue trivial
  | .markIdle _, _ => .isTrue trivial
  | .subscribe _, _ => .isTrue trivial

/-- How a station's queue stands to its events and to the copy of it. -/
structure Traced (issued : List String) (queue : List RadioQueuedRequestInfo)
    (log : List QueueChange) (snapshot : Option (List RadioQueuedRequestInfo)) : Prop where
  known : ∀ id ∈ queue.map (·.id), id ∈ issued
  named : ∀ change ∈ log, ∀ id, change.Names RadioQueuedRequestInfo.id id → id ∈ issued
  distinct : (queue.map (·.id)).Nodup
  settled : Change.Settled RadioQueuedRequestInfo.id log queue
  copied : ∀ rows, snapshot = some rows →
    Change.replay RadioQueuedRequestInfo.id log rows = queue

def Consistent (s : QueueFeed) : Prop :=
  ∀ stationId, Traced s.issued (queueInfos stationId s.registry)
    ((s.log stationId).map RadioQueueEvent.change) (snapshotOf stationId s.subscription)

section Traced

variable {issued issued' : List String} {queue after : List RadioQueuedRequestInfo}
  {log forgotten : List QueueChange} {snapshot : Option (List RadioQueuedRequestInfo)}

theorem Traced.more (traced : Traced issued queue log snapshot)
    (more : ∀ id ∈ issued, id ∈ issued') : Traced issued' queue log snapshot where
  known id there := more id (traced.known id there)
  named change member id names := more id (traced.named change member id names)
  distinct := traced.distinct
  settled := traced.settled
  copied := traced.copied

theorem Traced.forget (traced : Traced issued queue (forgotten ++ log) snapshot) :
    Traced issued queue log none where
  known := traced.known
  named change member := traced.named change (List.mem_append_right _ member)
  distinct := traced.distinct
  settled := traced.settled.suffix
  copied _ none := nomatch none

theorem Traced.expire (traced : Traced issued queue [] none) (fewer : after.Sublist queue) :
    Traced issued after [] none where
  known id there := traced.known id ((fewer.map _).subset there)
  named _ none := nomatch none
  distinct := traced.distinct.sublist (fewer.map _)
  settled := .start _
  copied _ none := nomatch none

theorem Traced.apply (traced : Traced issued queue log snapshot) {event : RadioQueueEvent}
    (suits : event.Suits queue) (more : ∀ id ∈ issued, id ∈ issued')
    (fresh : ∀ row, event.change = .append row → row.id ∉ issued ∧ row.id ∈ issued') :
    Traced issued' (applyEvent queue event) (log ++ [event.change]) snapshot := by
  have given : ∀ id, event.change.Names RadioQueuedRequestInfo.id id → id ∈ issued' := by
    intro id names
    cases event with
    | submitted stationId request =>
      have same : request.id = id := names
      rw [← same]
      exact (fresh request rfl).2
    | removed stationId requestId =>
      have same : requestId = id := names
      rw [← same]
      exact more _ (traced.known _ suits)
    | reordered stationId requestId newIndex => cases names
    | cleared stationId => cases names
  have new : event.change.New RadioQueuedRequestInfo.id log queue := by
    cases event with
    | submitted stationId request =>
      exact ⟨suits, fun earlier member names =>
        (fresh request rfl).1 (traced.named earlier member _ names)⟩
    | removed stationId requestId => trivial
    | reordered stationId requestId newIndex => trivial
    | cleared stationId => trivial
  rw [applyEvent_eq]
  refine ⟨fun id there => ?_, fun change member id names => ?_,
    Change.apply_nodup traced.distinct _, .later traced.settled _ new, fun rows taken => ?_⟩
  · rcases Change.mem_apply there with before | names
    · exact more id (traced.known id before)
    · exact given id names
  · rcases List.mem_append.mp member with before | last
    · exact more id (traced.named change before id names)
    · rw [List.mem_singleton.mp last] at names
      exact given id names
  · rw [Change.replay_append, traced.copied rows taken]
    rfl

theorem Traced.reflect (traced : Traced issued queue log snapshot)
    {event : Option RadioQueueEvent} (reflects : Reflects queue event after)
    (more : ∀ id ∈ issued, id ∈ issued')
    (fresh : ∀ changed ∈ event, ∀ row, changed.change = .append row →
      row.id ∉ issued ∧ row.id ∈ issued') :
    Traced issued' after (log ++ event.toList.map RadioQueueEvent.change) snapshot := by
  cases event with
  | none =>
    obtain rfl : after = queue := reflects
    rw [Option.toList_none, List.map_nil, List.append_nil]
    exact traced.more more
  | some changed =>
    obtain ⟨suits, rfl⟩ := reflects
    exact traced.apply suits more (fresh changed rfl)

theorem Traced.copy (traced : Traced issued queue log snapshot)
    (still : ∀ change ∈ log, change.isMove = false) : Traced issued queue log (some queue) where
  known := traced.known
  named := traced.named
  distinct := traced.distinct
  settled := traced.settled
  copied rows taken := by
    obtain rfl : queue = rows := Option.some.inj taken
    exact traced.settled.replay_self still

end Traced

section Steps

variable {s : QueueFeed}

theorem queueInfos_elsewhere {reg reg' : Registry} {stationId : String}
    (same : reg' stationId = reg stationId) :
    queueInfos stationId reg' = queueInfos stationId reg := by
  rw [queueInfos, same, queueInfos]

theorem Consistent.listed (consistent : s.Consistent) {stationId : String}
    (unexpired : s.Unexpired stationId) :
    Traced s.issued (snapshotForStation s.now stationId s.registry).1
      ((s.log stationId).map RadioQueueEvent.change) (snapshotOf stationId s.subscription) := by
  have traced := consistent stationId
  rcases unexpired with same | ⟨silent, uncopied⟩
  · rw [same]
    exact traced
  · rw [silent, uncopied] at traced ⊢
    exact traced.expire (snapshotForStation_sublist s.now)

theorem Consistent.list (consistent : s.Consistent) {stationId : String}
    (unexpired : s.Unexpired stationId) : (s.step (.list stationId)).Consistent := by
  intro other
  by_cases differs : other = stationId
  · subst differs
    have traced := consistent.listed unexpired
    rw [← snapshotForStation_queue] at traced
    exact traced
  · have elsewhere : (Requests.list s.now stationId s.registry).2 other = s.registry other :=
      Requests.list_elsewhere differs s.now
    have same := queueInfos_elsewhere elsewhere
    have traced := consistent other
    rw [← same] at traced
    exact traced

/-- The queue before a call changes it, with what has expired taken away. -/
theorem Consistent.called (consistent : s.Consistent) {call : QueueCall}
    (timely : Timely (.call call) s) : ∃ before,
      Traced s.issued before ((s.log call.stationId).map RadioQueueEvent.change)
        (snapshotOf call.stationId s.subscription) ∧
      Reflects before (call.change s.now s.registry).1
        (queueInfos call.stationId (call.change s.now s.registry).2) := by
  have traced := consistent call.stationId
  cases call with
  | submitRequest stationId id kind itemId requestedBy =>
    have new : id ∉ (queueInfos stationId s.registry).map (·.id) :=
      fun there => timely (traced.known id there)
    exact ⟨_, traced, submitRequest_reflects s.now kind itemId requestedBy new⟩
  | removeRequest stationId requestId => exact ⟨_, traced, removeRequest_reflects requestId⟩
  | reorderRequest stationId requestId newIndex =>
    exact ⟨_, traced, reorderRequest_reflects requestId newIndex⟩
  | clearRequests stationId => exact ⟨_, traced, clearRequests_reflects⟩
  | pickForStation stationId =>
    have listed := consistent.listed timely
    exact ⟨_, listed, pickForStation_reflects s.now listed.distinct⟩

theorem issue_more (call : QueueCall) : ∀ id ∈ s.issued, id ∈ issue s.issued call := by
  intro id known
  cases call with
  | submitRequest stationId new kind itemId requestedBy => exact .tail _ known
  | removeRequest stationId requestId => exact known
  | reorderRequest stationId requestId newIndex => exact known
  | clearRequests stationId => exact known
  | pickForStation stationId => exact known

theorem issue_fresh {call : QueueCall} (timely : Timely (.call call) s) :
    ∀ changed ∈ (call.change s.now s.registry).1, ∀ row, changed.change = .append row →
      row.id ∉ s.issued ∧ row.id ∈ issue s.issued call := by
  intro changed emits row appends
  cases call with
  | submitRequest stationId id kind itemId requestedBy =>
    cases emits
    cases appends
    exact ⟨timely, List.mem_cons_self⟩
  | removeRequest stationId requestId =>
    simp only [QueueCall.change, Radio.removeRequest, Option.mem_def,
      Option.ite_none_right_eq_some, Option.some.injEq] at emits
    rw [← emits.2] at appends
    cases appends
  | reorderRequest stationId requestId newIndex =>
    obtain ⟨_, -, rfl⟩ := Option.map_eq_some_iff.mp emits
    cases appends
  | clearRequests stationId =>
    cases emits
    cases appends
  | pickForStation stationId =>
    obtain ⟨_, -, rfl⟩ := Option.map_eq_some_iff.mp emits
    cases appends

theorem call_log (call : QueueCall) : (s.call call).log call.stationId =
    s.log call.stationId ++ (call.change s.now s.registry).1.toList := by
  have own : (call.change s.now s.registry).1.toList.filter (·.stationId = call.stationId) =
      (call.change s.now s.registry).1.toList :=
    List.filter_eq_self.mpr fun event emits =>
      decide_eq_true (QueueCall.change_station (Option.mem_toList.mp emits))
  simp only [log, QueueFeed.call, List.filter_append, own, List.append_assoc]

theorem call_log_elsewhere (call : QueueCall) {other : String} (differs : other ≠ call.stationId) :
    (s.call call).log other = s.log other := by
  have foreign : (call.change s.now s.registry).1.toList.filter (·.stationId = other) = [] := by
    refine List.filter_eq_nil_iff.mpr fun event emits same => differs ?_
    rw [← of_decide_eq_true same, QueueCall.change_station (Option.mem_toList.mp emits)]
  simp only [log, QueueFeed.call, List.filter_append, foreign, List.append_nil]

theorem Consistent.call (consistent : s.Consistent) {call : QueueCall}
    (timely : Timely (.call call) s) : (s.call call).Consistent := by
  intro other
  by_cases differs : other = call.stationId
  · subst differs
    obtain ⟨before, traced, reflects⟩ := consistent.called timely
    rw [call_log, List.map_append]
    exact traced.reflect reflects (issue_more call) (issue_fresh timely)
  · have same := queueInfos_elsewhere (call.change_elsewhere s.now s.registry differs)
    have traced := (consistent other).more (issue_more call)
    rw [← same, ← call_log_elsewhere call differs] at traced
    exact traced

theorem snapshotOf_hear (stationId : String) (event : RadioQueueEvent)
    (subscription : Option Subscription) :
    snapshotOf stationId (subscription.map (Subscription.hear event)) =
      snapshotOf stationId subscription := by
  cases subscription with
  | none => rfl
  | some sub =>
    simp only [Option.map_some, Subscription.hear, snapshotOf]
    split <;> rfl

theorem heard_elsewhere {stationId : String} {event : RadioQueueEvent}
    (differs : event.stationId ≠ stationId) (subscription : Option Subscription) :
    heard stationId (subscription.map (Subscription.hear event)) = heard stationId subscription := by
  cases subscription with
  | none => rfl
  | some sub =>
    simp only [Option.map_some, Subscription.hear, heard]
    by_cases own : sub.stationId = event.stationId
    · rw [if_pos own, if_neg (own ▸ differs), if_neg (own ▸ differs)]
    · rw [if_neg own]

theorem heard_own (event : RadioQueueEvent) (subscription : Option Subscription) :
    heard event.stationId (subscription.map (Subscription.hear event)) =
      heard event.stationId subscription ++ [event] ∨
    (heard event.stationId (subscription.map (Subscription.hear event)) = [] ∧
      heard event.stationId subscription = [] ∧
      snapshotOf event.stationId subscription = none) := by
  cases subscription with
  | none => exact .inr ⟨rfl, rfl, rfl⟩
  | some sub =>
    by_cases own : sub.stationId = event.stationId
    · simp only [Option.map_some, Subscription.hear, heard, if_pos own, true_or]
    · simp only [Option.map_some, Subscription.hear, heard, snapshotOf, if_neg own, and_self,
        or_true]

theorem Consistent.emit (consistent : s.Consistent) {index : Nat}
    (timely : Timely (.emit index) s) : (s.emit index).Consistent := by
  intro other
  cases rest : s.emitting.drop index with
  | nil =>
    simp only [QueueFeed.emit, rest]
    exact consistent other
  | cons event later =>
    have split : s.emitting = s.emitting.take index ++ event :: later := by
      rw [← rest, List.take_append_drop]
    have here : s.emitting[index]? = some event := by
      have first := List.head?_drop (l := s.emitting) (i := index)
      rw [rest] at first
      exact first.symm
    have traced := consistent other
    simp only [QueueFeed.emit, rest]
    rw [log, split, List.filter_append, List.filter_cons] at traced
    by_cases differs : event.stationId = other
    · subst differs
      have first : (s.emitting.take index).filter (·.stationId = event.stationId) = [] :=
        List.filter_eq_nil_iff.mpr fun earlier member same =>
          timely event here earlier member (of_decide_eq_true same)
      simp only [log, List.filter_append, first, List.nil_append, decide_true, if_true,
        snapshotOf_hear] at traced ⊢
      rcases heard_own event s.subscription with hears | ⟨deaf, before, uncopied⟩
      · rw [hears, List.append_assoc, List.singleton_append]
        exact traced
      · rw [before, uncopied] at traced
        rw [deaf, uncopied]
        have traced : Traced s.issued _ ([event.change] ++ _) none := traced
        exact traced.forget
    · simp only [log, List.filter_append, decide_eq_false differs, Bool.false_eq_true, if_false,
        snapshotOf_hear, heard_elsewhere differs] at traced ⊢
      exact traced

theorem Consistent.subscribe (consistent : s.Consistent) (stationId : String) :
    (s.step (.subscribe stationId)).Consistent := by
  intro other
  have traced := consistent other
  have deaf : heard other (some ⟨stationId, [], none⟩) = [] := ite_self _
  have uncopied : snapshotOf other (some ⟨stationId, [], none⟩) = none := ite_self _
  rw [log, List.map_append] at traced
  simp only [step, log, deaf, uncopied, List.nil_append]
  exact traced.forget

theorem Consistent.snapshot (consistent : s.Consistent) (timely : Timely .snapshot s) :
    s.snapshot.Consistent := by
  intro other
  unfold QueueFeed.snapshot
  split
  · rename_i stationId received subscribed
    obtain ⟨unexpired, still⟩ := timely _ subscribed rfl
    have traced := consistent other
    by_cases differs : other = stationId
    · subst differs
      have listed := consistent.listed unexpired
      have copied := listed.copy fun change member => by
        obtain ⟨event, logged, rfl⟩ := List.mem_map.mp member
        rw [RadioQueueEvent.change_isMove]
        exact still event logged
      simp only [log, subscribed, heard, if_true] at copied
      simp only [log, heard, snapshotOf, if_true, snapshotForStation_queue]
      exact copied
    · have kept : (Requests.list s.now stationId s.registry).2 other = s.registry other :=
        Requests.list_elsewhere differs s.now
      have same := queueInfos_elsewhere kept
      rw [← same] at traced
      have elsewhere : ¬stationId = other := fun same => differs same.symm
      simp only [log, subscribed, heard, snapshotOf, if_neg elsewhere] at traced ⊢
      exact traced
  · exact consistent other

theorem Consistent.step (consistent : s.Consistent) (op : FeedOp) (timely : Timely op s) :
    (s.step op).Consistent := by
  cases op with
  | tick elapsed => exact consistent
  | markActive stationId =>
    intro other
    have traced := consistent other
    rw [← queueInfos_markActive stationId] at traced
    exact traced
  | markIdle stationId =>
    intro other
    have traced := consistent other
    rw [← queueInfos_markIdle s.now stationId] at traced
    exact traced
  | list stationId => exact consistent.list timely
  | call change => exact consistent.call timely
  | emit index => exact consistent.emit timely
  | subscribe stationId => exact consistent.subscribe stationId
  | snapshot => exact consistent.snapshot timely

theorem replay_events (events : List RadioQueueEvent) (rows : List RadioQueuedRequestInfo) :
    Change.replay RadioQueuedRequestInfo.id (events.map RadioQueueEvent.change) rows =
      events.foldl applyEvent rows := by
  induction events generalizing rows with
  | nil => rfl
  | cons event rest ih =>
    rw [List.map_cons, Change.replay_cons, ih, List.foldl_cons, applyEvent_eq]

theorem Consistent.replicated (consistent : s.Consistent) : s.Replicated := by
  intro stationId received rows subscribed quiet
  have settled : s.emitting.filter (·.stationId = stationId) = [] :=
    List.filter_eq_nil_iff.mpr fun event member same => quiet event member (of_decide_eq_true same)
  have logged : s.log stationId = received := by
    simp only [log, subscribed, heard, if_true, settled, List.append_nil]
  have copied := (consistent stationId).copied rows (by simp only [subscribed, snapshotOf, if_true])
  rw [logged, replay_events] at copied
  rw [copied, queueInfos, List.map_map]
  rfl

end Steps

theorem start_consistent (now : Nat) : (start now).Consistent := by
  intro stationId
  exact ⟨fun id there => (nomatch there), fun change logged => (nomatch logged), List.nodup_nil,
    .start _, fun rows taken => nomatch taken⟩

/-- Over every timely run, from a time at which there are no queues: whenever no call is in progress
on its station, the subscriber has exactly the server's queue. -/
theorem queue_replicated (now : Nat) (ops : List FeedOp)
    (timely : Meets step Timely ops (start now)) : (runAll step ops (start now)).Replicated := by
  have keeps : ∀ op s, Timely op s → s.Consistent → (s.step op).Consistent :=
    fun op _ timely consistent => consistent.step op timely
  exact (timely.keeps keeps (start_consistent now)).replicated


def lateSubscriber : List FeedOp :=
  [.call (.submitRequest "a" "r" .song "s" "u"), .subscribe "a", .snapshot, .emit 0,
    .call (.submitRequest "a" "q" .song "t" "u"), .emit 0,
    .call (.reorderRequest "a" "q" 0), .emit 0]

theorem late_subscriber_has_queue :
    (runAll step lateSubscriber (start 0)).subscription.map
      (fun sub => sub.received.foldl applyEvent (sub.snapshot.getD [])) =
        some [⟨"q", .song, "t", "u"⟩, ⟨"r", .song, "s", "u"⟩] ∧
    (runAll step lateSubscriber (start 0)).Replicated :=
  ⟨by decide, queue_replicated 0 _ (by decide)⟩

/-- Two requests are submitted, and the second call is the first to emit its event. -/
theorem overtaken_event_reorders_copy : ¬∀ (now : Nat) (ops : List FeedOp),
    Meets step Fresh ops (start now) → (runAll step ops (start now)).Replicated := by
  intro claimed
  have copied := claimed 0 [.subscribe "a", .snapshot,
    .call (.submitRequest "a" "r" .song "s" "u"), .call (.submitRequest "a" "q" .song "t" "u"),
    .emit 1, .emit 0] (by decide) "a" _ _ rfl (by decide)
  revert copied
  decide

end QueueFeed

end Tomb.Grimoire.Radio
