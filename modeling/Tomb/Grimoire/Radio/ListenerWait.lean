import Tomb.Lib.Runs

/-! A broadcaster's count of listeners, and the two places where its run loop waits for one: between
tracks, and within a track that it freezes. `notify_waiters` wakes the futures that exist and leaves
nothing for those that come later, and only the first listener calls it. A join is two steps, and
so is a wait: read the count, create the future. -/
namespace Tomb.Grimoire.Radio
open Tomb.Lib

/-- Where the run loop stands. In `wait_for_listener` it reads the count, announces that it is idle,
and turns in its loop; in the freeze loop it reads the count, waits, and reads it again. A future
that exists is notified or not. -/
inductive RunLoop where
  | running
  | entering
  | announcing
  | checking
  | creating
  | blocked (notified : Bool)
  | pulling
  | freezing
  | frozen (notified : Bool)
  | thawing
  deriving DecidableEq

/-- The joins that have counted the first listener and have not notified yet are `notifying`; the
listeners that may leave are `present`. -/
structure ListenerWait where
  (listenerCount notifying present : Nat)
  loop : RunLoop

inductive WaitOp where
  | join
  | notifyWaiters
  | leave
  | waitForListener
  | nextChunk
  | readCount
  | announced
  | await
  | wake
  | giveUp

def RunLoop.notified : RunLoop → RunLoop
  | .blocked _ => .blocked true
  | .frozen _ => .frozen true
  | loop => loop

def RunLoop.readCount (none_ : Bool) : RunLoop → RunLoop
  | .entering => if none_ then .announcing else .running
  | .checking => if none_ then .creating else .running
  | .pulling => if none_ then .freezing else .running
  | .thawing => if none_ then .pulling else .running
  | loop => loop

def RunLoop.await : RunLoop → RunLoop
  | .creating => .blocked false
  | .freezing => .frozen false
  | loop => loop

def RunLoop.wake : RunLoop → RunLoop
  | .blocked true => .checking
  | .frozen true => .thawing
  | loop => loop

def RunLoop.goOn (loop here next : RunLoop) : RunLoop := if loop = here then next else loop

/-- A freeze ends with its grace, or with a skip; the run loop then takes its next turn. -/
def RunLoop.giveUp : RunLoop → RunLoop
  | .freezing | .frozen _ => .running
  | loop => loop

namespace RunLoop

/-- In `wait_for_listener`, a count of zero is read and no join has been told of since. -/
def unaware : RunLoop → Bool
  | .creating | .blocked false => true
  | _ => false

variable {loop : RunLoop}

theorem creating_of_notified (after : loop.notified.unaware = true) : loop = .creating := by
  cases loop with
  | creating => rfl
  | _ => cases after

theorem unaware_of_goOn {here next : RunLoop} (aware : next.unaware = false)
    (after : (loop.goOn here next).unaware = true) : loop.unaware = true := by
  unfold goOn at after
  split at after
  · rw [aware] at after
    cases after
  · exact after

theorem unaware_of_readCount {none_ : Bool}
    (after : (loop.readCount none_).unaware = true) : loop.unaware = true ∨ none_ = true := by
  cases none_ with
  | true => exact .inr rfl
  | false =>
    left
    cases loop with
    | creating => rfl
    | blocked notified => exact after
    | _ => cases after

theorem unaware_of_await (after : loop.await.unaware = true) : loop.unaware = true := by
  cases loop with
  | creating => rfl
  | blocked notified => exact after
  | _ => cases after

theorem unaware_of_wake (after : loop.wake.unaware = true) : loop.unaware = true := by
  cases loop with
  | creating => rfl
  | blocked notified =>
    cases notified with
    | false => rfl
    | true => cases after
  | frozen notified =>
    cases notified with
    | false => cases after
    | true => cases after
  | _ => cases after

theorem unaware_of_giveUp (after : loop.giveUp.unaware = true) : loop.unaware = true := by
  cases loop with
  | creating => rfl
  | blocked notified => exact after
  | _ => cases after

end RunLoop

namespace ListenerWait

def new : ListenerWait := ⟨0, 0, 0, .running⟩

def join (s : ListenerWait) : ListenerWait :=
  let next := (s.listenerCount + 1) % 2 ^ 32
  if next = 1 then { s with listenerCount := next, notifying := s.notifying + 1 }
  else { s with listenerCount := next, present := s.present + 1 }

def notifyWaiters (s : ListenerWait) : ListenerWait :=
  match s.notifying with
  | 0 => s
  | notifying + 1 => { s with
      notifying := notifying
      present := s.present + 1
      loop := s.loop.notified }

def leave (s : ListenerWait) : ListenerWait :=
  match s.present with
  | 0 => s
  | present + 1 => { s with
      listenerCount := (s.listenerCount + (2 ^ 32 - 1)) % 2 ^ 32
      present := present }

def step : WaitOp → ListenerWait → ListenerWait
  | .join, s => s.join
  | .notifyWaiters, s => s.notifyWaiters
  | .leave, s => s.leave
  | .waitForListener, s => { s with loop := s.loop.goOn .running .entering }
  | .nextChunk, s => { s with loop := s.loop.goOn .running .pulling }
  | .readCount, s => { s with loop := s.loop.readCount (s.listenerCount = 0) }
  | .announced, s => { s with loop := s.loop.goOn .announcing .checking }
  | .await, s => { s with loop := s.loop.await }
  | .wake, s => { s with loop := s.loop.wake }
  | .giveUp, s => { s with loop := s.loop.giveUp }

/-- The run loop is blocked beside a listener, and no wake-up is pending for it: its future is not
notified, and no join is going to notify. -/
def Silent (s : ListenerWait) : Prop :=
  s.loop = .blocked false ∧ s.notifying = 0 ∧ 0 < s.listenerCount

instance (s : ListenerWait) : Decidable s.Silent := inferInstanceAs (Decidable (_ ∧ _ ∧ _))

/-- No join notifies between the last read of the count and the creation of the future, unless the
listeners have left again or another join is going to notify; and the count does not overflow. -/
def Timely : WaitOp → ListenerWait → Prop
  | .join, s => s.listenerCount + 1 < 2 ^ 32
  | .notifyWaiters, s => s.loop = .creating → s.listenerCount = 0 ∨ 1 < s.notifying
  | _, _ => True

instance : (op : WaitOp) → (s : ListenerWait) → Decidable (Timely op s)
  | .join, s => inferInstanceAs (Decidable (s.listenerCount + 1 < 2 ^ 32))
  | .notifyWaiters, s =>
    inferInstanceAs (Decidable (s.loop = .creating → s.listenerCount = 0 ∨ 1 < s.notifying))
  | .leave, _ => .isTrue trivial
  | .waitForListener, _ => .isTrue trivial
  | .nextChunk, _ => .isTrue trivial
  | .readCount, _ => .isTrue trivial
  | .announced, _ => .isTrue trivial
  | .await, _ => .isTrue trivial
  | .wake, _ => .isTrue trivial
  | .giveUp, _ => .isTrue trivial

/-- The count is the number of listeners, and where the run loop waits beside one, a join is still
going to notify. -/
structure Awake (s : ListenerWait) : Prop where
  counted : s.listenerCount = s.notifying + s.present
  small : s.listenerCount < 2 ^ 32
  warned : s.loop.unaware = true → 0 < s.listenerCount → 0 < s.notifying

theorem awake_new : new.Awake := by
  refine ⟨rfl, by decide, ?_⟩
  intro _ counted
  exact absurd counted (Nat.lt_irrefl 0)

theorem Awake.join {s : ListenerWait} (awake : s.Awake) (room : s.listenerCount + 1 < 2 ^ 32) :
    s.join.Awake := by
  have next : (s.listenerCount + 1) % 2 ^ 32 = s.listenerCount + 1 := Nat.mod_eq_of_lt room
  have counted := awake.counted
  unfold ListenerWait.join
  simp only [next]
  split
  · refine ⟨?_, room, fun _ _ => Nat.succ_pos _⟩
    change s.listenerCount + 1 = s.notifying + 1 + s.present
    omega
  · rename_i later
    refine ⟨?_, room, fun unaware _ => ?_⟩
    · change s.listenerCount + 1 = s.notifying + (s.present + 1)
      omega
    · have listener : 0 < s.listenerCount := Nat.pos_of_ne_zero fun none_ => later (by rw [none_])
      exact awake.warned unaware listener

theorem Awake.notifyWaiters {s : ListenerWait} (awake : s.Awake)
    (timely : s.loop = .creating → s.listenerCount = 0 ∨ 1 < s.notifying) :
    s.notifyWaiters.Awake := by
  have counted := awake.counted
  unfold ListenerWait.notifyWaiters
  split
  · exact awake
  · rename_i notifying pending
    refine ⟨?_, awake.small, fun unaware listener => ?_⟩
    · change s.listenerCount = notifying + (s.present + 1)
      omega
    · change 0 < notifying
      have before := timely (RunLoop.creating_of_notified unaware)
      change 0 < s.listenerCount at listener
      omega

theorem Awake.leave {s : ListenerWait} (awake : s.Awake) : s.leave.Awake := by
  have counted := awake.counted
  have small := awake.small
  unfold ListenerWait.leave
  split
  · exact awake
  · rename_i present there
    have fewer : (s.listenerCount + (2 ^ 32 - 1)) % 2 ^ 32 = s.notifying + present := by omega
    simp only [fewer]
    refine ⟨rfl, ?_, fun unaware _ => ?_⟩
    · simp only
      omega
    · exact awake.warned unaware (by omega)

theorem Awake.onLoop {s : ListenerWait} (awake : s.Awake) {loop : RunLoop}
    (waits : loop.unaware = true → s.loop.unaware = true ∨ s.listenerCount = 0) :
    { s with loop := loop }.Awake where
  counted := awake.counted
  small := awake.small
  warned unaware listener := by
    rcases waits unaware with before | none_
    · exact awake.warned before listener
    · change 0 < s.listenerCount at listener
      omega

theorem awake_step {op : WaitOp} {s : ListenerWait} (timely : Timely op s) (awake : s.Awake) :
    (step op s).Awake := by
  cases op with
  | join => exact awake.join timely
  | notifyWaiters => exact awake.notifyWaiters timely
  | leave => exact awake.leave
  | waitForListener => exact awake.onLoop fun unaware => .inl (RunLoop.unaware_of_goOn rfl unaware)
  | nextChunk => exact awake.onLoop fun unaware => .inl (RunLoop.unaware_of_goOn rfl unaware)
  | announced => exact awake.onLoop fun unaware => .inl (RunLoop.unaware_of_goOn rfl unaware)
  | readCount =>
    refine awake.onLoop fun unaware => ?_
    exact (RunLoop.unaware_of_readCount unaware).imp_right of_decide_eq_true
  | await => exact awake.onLoop fun unaware => .inl (RunLoop.unaware_of_await unaware)
  | wake => exact awake.onLoop fun unaware => .inl (RunLoop.unaware_of_wake unaware)
  | giveUp => exact awake.onLoop fun unaware => .inl (RunLoop.unaware_of_giveUp unaware)

/-- In every run whose steps are timely, no wake-up is lost. -/
theorem wake_ups_kept (ops : List WaitOp) (timely : Meets step Timely ops new) :
    ¬ (runAll step ops new).Silent := by
  have awake : (runAll step ops new).Awake :=
    timely.keeps (fun _ _ timely awake => awake_step timely awake) awake_new
  rintro ⟨blocked, none_, listener⟩
  have unaware : (runAll step ops new).loop.unaware = true := by
    rw [blocked]
    rfl
  have pending := awake.warned unaware listener
  omega

/-- A listener joins while the run loop is blocked, another one in between, and the loop wakes. -/
def timelyWaits : List WaitOp :=
  [.waitForListener, .readCount, .announced, .readCount, .await, .join, .join, .notifyWaiters,
    .wake, .readCount, .nextChunk, .readCount, .leave, .leave, .nextChunk, .readCount, .await,
    .giveUp, .waitForListener, .readCount]

theorem timelyWaits_kept : ¬ (runAll step timelyWaits new).Silent :=
  wake_ups_kept timelyWaits (by decide)

/-- The first listener joins between the read of the count and the creation of the future. -/
theorem wake_up_lost :
    (runAll step [.waitForListener, .readCount, .announced, .readCount, .join, .notifyWaiters, .await]
      new).Silent := by decide

end ListenerWait

end Tomb.Grimoire.Radio
