import Mathlib.Data.List.Range
import Tomb.Lib.Runs

/-! A queue of items that are sent by several workers, and its pause, resume and cancel. A worker
that finds the queue not paused still gives way once before it takes its item, and so does one that
is woken. Labels, progress and the results of sending are left out, and so is the registry of the
queues. -/
namespace Tomb.Spume.Transfers
open Tomb.Lib

inductive TransferQueueItemStatus where
  | pending
  | active
  | completed
  | failed

structure TransferQueueItem where
  id : String
  status : TransferQueueItemStatus := .pending
  error : Option String := none

inductive Sent where
  | result
  | error (message : String)
  | throws (message : String)

/-- Where a worker is: `passing` if nothing holds it up before its next item, `waiting` among the
waiters of the pause. -/
inductive Worker where
  | passing
  | waiting
  | sending (index : Nat)
  | returned
  deriving DecidableEq

structure Start where
  index : Nat
  (paused cancelled : Bool)
  deriving DecidableEq

structure TransferQueue where
  items : List TransferQueueItem
  nextIndex : Nat := 0
  paused : Bool := false
  cancelled : Bool := false
  workers : List Worker
  /-- `runTransferQueue` still waits for its workers. -/
  running : Bool := true
  done : Bool := false
  starts : List Start := []
  settled : List Nat := []
  /-- How often the queue was marked done. -/
  finishes : Nat := 0

inductive Op where
  | pause
  | resume
  | cancel
  /-- A worker that was passing goes on. -/
  | proceed (worker : Nat)
  | settle (worker : Nat) (sent : Sent)
  /-- `Promise.all` of the workers has resolved. -/
  | finish

def createTransferQueue (ids : List String) (concurrency : Nat) : TransferQueue where
  items := ids.map fun id => { id }
  workers := List.replicate (min (max 1 concurrency) (max ids.length 1)) .passing

def Worker.wake : Worker → Worker
  | .waiting => .passing
  | worker => worker

def Sent.patch (sent : Sent) (item : TransferQueueItem) : TransferQueueItem :=
  match sent with
  | .result => { item with status := .completed }
  | .error message | .throws message => { item with status := .failed, error := some message }

namespace TransferQueue

variable (q : TransferQueue)

def updateItem (id : String) (patch : TransferQueueItem → TransferQueueItem) : TransferQueue :=
  { q with items := q.items.map fun item => if item.id = id then patch item else item }

def pauseTransferQueue : TransferQueue := if q.cancelled then q else { q with paused := true }

def resumeTransferQueue : TransferQueue :=
  { q with paused := false, workers := q.workers.map Worker.wake }

def cancelTransferQueue : TransferQueue := resumeTransferQueue { q with cancelled := true }

def next : Worker :=
  if q.cancelled then .returned else if q.paused then .waiting else .passing

def runOneAt (worker index : Nat) : TransferQueue :=
  let started := { q with
    workers := q.workers.set worker (.sending index)
    starts := q.starts ++ [⟨index, q.paused, q.cancelled⟩] }
  match q.items[index]? with
  | none => started
  | some item => started.updateItem item.id fun item => { item with status := .active }

def proceed (worker : Nat) : TransferQueue :=
  if q.workers[worker]? = some .passing then
    if q.cancelled then { q with workers := q.workers.set worker .returned }
    else
      let index := q.nextIndex
      let claimed := { q with nextIndex := index + 1 }
      if q.items.length ≤ index then { claimed with workers := q.workers.set worker .returned }
      else claimed.runOneAt worker index
  else q

def settle (worker : Nat) (sent : Sent) : TransferQueue :=
  match q.workers[worker]? with
  | some (.sending index) =>
    let left := { q with workers := q.workers.set worker q.next, settled := q.settled ++ [index] }
    match q.items[index]? with
    | none => left
    | some item => left.updateItem item.id (Sent.patch sent)
  | _ => q

def finish : TransferQueue :=
  if q.running && q.workers.all (· = .returned) then
    { q with running := false, done := true, finishes := q.finishes + 1 }
  else q

def step : Op → TransferQueue → TransferQueue
  | .pause, q => q.pauseTransferQueue
  | .resume, q => q.resumeTransferQueue
  | .cancel, q => q.cancelTransferQueue
  | .proceed worker, q => q.proceed worker
  | .settle worker sent, q => q.settle worker sent
  | .finish, q => q.finish

def inFlight : Nat := q.workers.countP fun
  | .sending _ => true
  | _ => false

/-- Nothing is in progress: no worker has a step to take, and the queue does not wait to be marked
done. -/
def Quiet : Prop :=
  (∀ worker ∈ q.workers, worker = .waiting ∨ worker = .returned) ∧
    (q.running = true → .waiting ∈ q.workers)

/-- The queue is not paused while a worker that has passed the check can take an item. -/
def Fits : Op → TransferQueue → Prop
  | .pause, q => .passing ∈ q.workers → q.cancelled = true ∨ q.items.length ≤ q.nextIndex
  | _, _ => True

instance : (op : Op) → (q : TransferQueue) → Decidable (Fits op q)
  | .pause, q => inferInstanceAs (Decidable (.passing ∈ q.workers →
      q.cancelled = true ∨ q.items.length ≤ q.nextIndex))
  | .resume, _ | .cancel, _ | .proceed _, _ | .settle _ _, _ | .finish, _ => .isTrue trivial

structure Sound (count : Nat) (size : Nat) (q : TransferQueue) : Prop where
  items : q.items.length = count
  workers : q.workers.length = size
  starts : q.starts.map (·.index) = List.range (min q.nextIndex count)
  wanted : ∀ start ∈ q.starts, start.cancelled = false
  waiting : .waiting ∈ q.workers → q.paused = true ∧ q.cancelled = false
  returned : .returned ∈ q.workers → q.cancelled = true ∨ count ≤ q.nextIndex
  settled : ∀ index < min q.nextIndex count, index ∈ q.settled ∨ .sending index ∈ q.workers
  running : q.running = true → q.done = false ∧ q.finishes = 0
  finished : q.running = false →
    q.done = true ∧ q.finishes = 1 ∧ ∀ worker ∈ q.workers, worker = .returned

section Steps

variable {count size : Nat} {q : TransferQueue}

theorem mem_set_of_ne {workers : List Worker} {i : Nat} {old new worker : Worker}
    (held : workers[i]? = some old) (member : worker ∈ workers) (differs : worker ≠ old) :
    worker ∈ workers.set i new := by
  obtain ⟨j, found⟩ := List.mem_iff_getElem?.mp member
  apply List.mem_iff_getElem?.mpr
  refine ⟨j, ?_⟩
  rw [List.getElem?_set_ne]
  · exact found
  · intro same
    rw [same, found] at held
    exact differs (Option.some.inj held)

theorem Sound.updateItem (sound : Sound count size q) (id : String)
    (patch : TransferQueueItem → TransferQueueItem) : Sound count size (q.updateItem id patch) :=
  { sound with items := (List.length_map _).trans sound.items }

theorem Sound.pause (sound : Sound count size q) : Sound count size q.pauseTransferQueue := by
  unfold pauseTransferQueue
  split
  · exact sound
  · rename_i going
    refine { sound with waiting := ?_ }
    intro _
    exact ⟨rfl, Bool.eq_false_iff.mpr going⟩

theorem wake_ne_waiting (worker : Worker) : worker.wake ≠ .waiting := by
  cases worker <;> exact Worker.noConfusion

theorem Sound.resume (sound : Sound count size q) : Sound count size q.resumeTransferQueue := by
  have stays {worker : Worker} (member : worker ∈ q.workers) (awake : worker.wake = worker) :
      worker ∈ q.workers.map Worker.wake := List.mem_map.mpr ⟨worker, member, awake⟩
  have was {worker : Worker} (member : worker ∈ q.workers.map Worker.wake)
      (awake : worker ≠ .passing) : worker ∈ q.workers := by
    obtain ⟨old, known, rfl⟩ := List.mem_map.mp member
    cases old with
    | waiting => exact absurd rfl awake
    | passing | sending | returned => exact known
  refine { sound with
      workers := ?_
      waiting := ?_
      returned := ?_
      settled := ?_
      finished := ?_ }
  · exact (List.length_map _).trans sound.workers
  · intro member
    obtain ⟨old, _, same⟩ := List.mem_map.mp member
    exact absurd same (wake_ne_waiting old)
  · intro member
    exact sound.returned (was member Worker.noConfusion)
  · intro index below
    exact (sound.settled index below).imp_right fun member => stays member rfl
  · intro stopped
    obtain ⟨done, once, all⟩ := sound.finished stopped
    refine ⟨done, once, ?_⟩
    intro worker member
    obtain ⟨old, known, rfl⟩ := List.mem_map.mp member
    rw [all old known]
    rfl

theorem Sound.cancel (sound : Sound count size q) : Sound count size q.cancelTransferQueue := by
  have woken := sound.resume
  exact { woken with
    waiting := fun member => by
      obtain ⟨old, _, same⟩ := List.mem_map.mp member
      exact absurd same (wake_ne_waiting old)
    returned := fun _ => .inl rfl }

theorem Sound.running_of_worker (sound : Sound count size q) {i : Nat} {worker : Worker}
    (held : q.workers[i]? = some worker) (atWork : worker ≠ .returned) : q.running = true := by
  cases running : q.running with
  | true => rfl
  | false =>
    have all := (sound.finished running).2.2
    exact absurd (all worker (List.mem_of_getElem? held)) atWork

theorem Sound.proceed (sound : Sound count size q) (i : Nat) : Sound count size (q.proceed i) := by
  unfold TransferQueue.proceed
  split
  · rename_i held
    have running := sound.running_of_worker held Worker.noConfusion
    have stopped {goal : Prop} (no : q.running = false) : goal := by
      rw [running] at no
      cases no
    have length (new : Worker) : (q.workers.set i new).length = size :=
      List.length_set.trans sound.workers
    have sending {index : Nat} {new : Worker} (member : .sending index ∈ q.workers) :
        .sending index ∈ q.workers.set i new := mem_set_of_ne held member Worker.noConfusion
    split
    · rename_i cancelled
      refine { sound with
          workers := length _
          waiting := ?_
          returned := ?_
          settled := ?_
          finished := stopped }
      · intro member
        rcases List.mem_or_eq_of_mem_set member with old | new
        · exact sound.waiting old
        · cases new
      · intro _
        exact .inl cancelled
      · intro index below
        exact (sound.settled index below).imp_right sending
    · rename_i going
      dsimp only
      split
      · rename_i exhausted
        rw [sound.items] at exhausted
        have same : min (q.nextIndex + 1) count = min q.nextIndex count := by omega
        refine { sound with
            workers := length _
            starts := ?_
            waiting := ?_
            returned := ?_
            settled := ?_
            finished := stopped }
        · rw [same]
          exact sound.starts
        · intro member
          rcases List.mem_or_eq_of_mem_set member with old | new
          · exact sound.waiting old
          · cases new
        · intro _
          exact .inr (Nat.le_succ_of_le exhausted)
        · rw [same]
          intro index below
          exact (sound.settled index below).imp_right sending
      · rename_i left
        rw [sound.items] at left
        have before : min q.nextIndex count = q.nextIndex := by omega
        have after : min (q.nextIndex + 1) count = q.nextIndex + 1 := by omega
        have started : Sound count size { q with
            nextIndex := q.nextIndex + 1
            workers := q.workers.set i (.sending q.nextIndex)
            starts := q.starts ++ [⟨q.nextIndex, q.paused, q.cancelled⟩] } := by
          refine { sound with
              workers := length _
              starts := ?_
              wanted := ?_
              waiting := ?_
              returned := ?_
              settled := ?_
              finished := stopped }
          · have starts := sound.starts
            rw [before] at starts
            rw [after, List.map_append, starts, List.range_succ]
            rfl
          · intro start member
            rcases List.mem_append.mp member with old | new
            · exact sound.wanted start old
            · rw [List.mem_singleton.mp new]
              exact Bool.eq_false_iff.mpr going
          · intro member
            rcases List.mem_or_eq_of_mem_set member with old | new
            · exact sound.waiting old
            · cases new
          · intro member
            rcases List.mem_or_eq_of_mem_set member with old | new
            · exact (sound.returned old).imp_right Nat.le_succ_of_le
            · cases new
          · intro index below
            rw [after] at below
            rcases Nat.lt_succ_iff_lt_or_eq.mp below with earlier | same
            · exact (sound.settled index (by omega)).imp_right sending
            · rw [same]
              have inside : i < q.workers.length := (List.getElem?_eq_some_iff.mp held).1
              exact .inr (List.mem_set inside _)
        unfold runOneAt
        dsimp only
        split
        · exact started
        · exact started.updateItem _ _
  · exact sound

theorem Sound.settle (sound : Sound count size q) (i : Nat) (sent : Sent) :
    Sound count size (q.settle i sent) := by
  unfold TransferQueue.settle
  split
  · rename_i index held
    have running := sound.running_of_worker held Worker.noConfusion
    have left : Sound count size { q with
        workers := q.workers.set i q.next, settled := q.settled ++ [index] } := by
      refine { sound with
          workers := ?_
          waiting := ?_
          returned := ?_
          settled := ?_
          finished := ?_ }
      · exact List.length_set.trans sound.workers
      · intro member
        rcases List.mem_or_eq_of_mem_set member with old | new
        · exact sound.waiting old
        · unfold next at new
          split at new
          · cases new
          · rename_i going
            split at new
            · rename_i paused
              exact ⟨paused, Bool.eq_false_iff.mpr going⟩
            · cases new
      · intro member
        rcases List.mem_or_eq_of_mem_set member with old | new
        · exact sound.returned old
        · unfold next at new
          split at new
          · rename_i cancelled
            exact .inl cancelled
          · split at new <;> cases new
      · intro other below
        by_cases same : other = index
        · rw [same]
          exact .inl (List.mem_append_right _ (List.mem_singleton.mpr rfl))
        · rcases sound.settled other below with settled | sending
          · exact .inl (List.mem_append_left _ settled)
          · refine .inr (mem_set_of_ne held sending ?_)
            intro equal
            exact same (Worker.sending.inj equal)
      · intro no
        rw [running] at no
        cases no
    dsimp only
    split
    · exact left
    · exact left.updateItem _ _
  · exact sound

theorem Sound.finish (sound : Sound count size q) : Sound count size q.finish := by
  unfold TransferQueue.finish
  split
  · rename_i both
    rw [Bool.and_eq_true] at both
    refine { sound with running := ?_, finished := ?_ }
    · intro no
      cases no
    · intro _
      refine ⟨rfl, ?_, ?_⟩
      · rw [(sound.running both.1).2]
      · intro worker member
        exact of_decide_eq_true (List.all_eq_true.mp both.2 worker member)
  · exact sound

theorem Sound.step (sound : Sound count size q) (op : Op) : Sound count size (step op q) := by
  cases op with
  | pause => exact sound.pause
  | resume => exact sound.resume
  | cancel => exact sound.cancel
  | proceed i => exact sound.proceed i
  | settle i sent => exact sound.settle i sent
  | finish => exact sound.finish

theorem start_sound (ids : List String) (concurrency : Nat) :
    Sound ids.length (min (max 1 concurrency) (max ids.length 1))
      (createTransferQueue ids concurrency) := by
  have passing {worker : Worker} (member : worker ∈ (createTransferQueue ids concurrency).workers) :
      worker = .passing := List.eq_of_mem_replicate member
  constructor
  · exact List.length_map _
  · exact List.length_replicate
  · rw [createTransferQueue, Nat.zero_min]
    rfl
  · exact fun _ member => nomatch member
  · intro member
    cases passing member
  · intro member
    cases passing member
  · intro index below
    rw [createTransferQueue, Nat.zero_min] at below
    exact absurd below (Nat.not_lt_zero index)
  · exact fun _ => ⟨rfl, rfl⟩
  · exact fun no => nomatch no

/-- No item was started while the queue was paused, and none is about to be. -/
structure Unpaused (q : TransferQueue) : Prop where
  starts : ∀ start ∈ q.starts, start.paused = false
  passing : .passing ∈ q.workers → q.paused = false ∨ q.cancelled = true ∨
    q.items.length ≤ q.nextIndex

theorem Unpaused.step {op : Op} (fits : Fits op q) (unpaused : Unpaused q) :
    Unpaused (TransferQueue.step op q) := by
  have items (id : String) (patch : TransferQueueItem → TransferQueueItem) {r : TransferQueue}
      (unpaused : Unpaused r) : Unpaused (r.updateItem id patch) := by
    refine { unpaused with passing := ?_ }
    intro member
    have length : (r.updateItem id patch).items.length = r.items.length := List.length_map _
    rw [length]
    exact unpaused.passing member
  cases op with
  | pause =>
    dsimp only [TransferQueue.step, pauseTransferQueue]
    split
    · exact unpaused
    · refine { unpaused with passing := ?_ }
      intro member
      exact .inr (fits member)
  | resume => exact { unpaused with passing := fun _ => .inl rfl }
  | cancel => exact { unpaused with passing := fun _ => .inl rfl }
  | proceed i =>
    dsimp only [TransferQueue.step, TransferQueue.proceed]
    have old {new : Worker} (member : .passing ∈ q.workers.set i new) (other : new ≠ .passing) :
        .passing ∈ q.workers :=
      (List.mem_or_eq_of_mem_set member).resolve_right other.symm
    split
    · rename_i held
      have now := unpaused.passing (List.mem_of_getElem? held)
      split
      · refine { unpaused with passing := ?_ }
        intro member
        exact unpaused.passing (old member Worker.noConfusion)
      · rename_i going
        split
        · rename_i exhausted
          exact { unpaused with passing := fun _ => .inr (.inr (Nat.le_succ_of_le exhausted)) }
        · rename_i left
          have free : q.paused = false := by
            rcases now with free | cancelled | exhausted
            · exact free
            · exact absurd cancelled going
            · exact absurd exhausted left
          have started : Unpaused { q with
              nextIndex := q.nextIndex + 1
              workers := q.workers.set i (.sending q.nextIndex)
              starts := q.starts ++ [⟨q.nextIndex, q.paused, q.cancelled⟩] } := by
            constructor
            · intro start member
              rcases List.mem_append.mp member with earlier | new
              · exact unpaused.starts start earlier
              · rw [List.mem_singleton.mp new]
                exact free
            · exact fun _ => .inl free
          unfold runOneAt
          dsimp only
          split
          · exact started
          · exact items _ _ started
    · exact unpaused
  | settle i sent =>
    dsimp only [TransferQueue.step, TransferQueue.settle]
    split
    · have left : ∀ index, Unpaused { q with
          workers := q.workers.set i q.next, settled := q.settled ++ [index] } := by
        intro index
        refine { unpaused with passing := ?_ }
        intro member
        rcases List.mem_or_eq_of_mem_set member with before | new
        · exact unpaused.passing before
        · unfold next at new
          split at new
          · cases new
          · split at new
            · cases new
            · rename_i free
              exact .inl (Bool.eq_false_iff.mpr free)
      split
      · exact left _
      · exact items _ _ (left _)
    · exact unpaused
  | finish =>
    dsimp only [TransferQueue.step, TransferQueue.finish]
    split
    · exact { unpaused with }
    · exact unpaused

end Steps

/-- In every run: at most so many items are in flight, each item is started at most once and in
order, none after a cancellation, the queue is marked done at most once, when everything has settled
and, unless cancelled, every item was started, and it is marked if nothing holds it up. While no
pause comes between the check of a worker and its next item, none is started while the queue is
paused. -/
theorem queue_runs_items (ids : List String) (concurrency : Nat) (some : 1 ≤ concurrency)
    (ops : List Op) :
    let start := createTransferQueue ids concurrency
    let q := runAll step ops start
    q.inFlight ≤ concurrency ∧
    (∃ count ≤ ids.length, q.starts.map (·.index) = List.range count) ∧
    (∀ start ∈ q.starts, start.cancelled = false) ∧
    q.finishes ≤ 1 ∧ (q.done = true ↔ q.finishes = 1) ∧
    (q.done = true → q.inFlight = 0 ∧ (∀ start ∈ q.starts, start.index ∈ q.settled) ∧
      (q.cancelled = false → q.starts.map (·.index) = List.range ids.length)) ∧
    (q.Quiet → q.paused = false → q.done = true) ∧
    (Meets step Fits ops start → ∀ start ∈ q.starts, start.paused = false) := by
  intro start q
  have sound : Sound ids.length (min (max 1 concurrency) (max ids.length 1)) q :=
    @runAll_keeps _ _ step (Sound ids.length (min (max 1 concurrency) (max ids.length 1)))
      (fun op _ sound => sound.step op) ops start (start_sound ids concurrency)
  have done_of : q.running = false → q.done = true := fun stopped => (sound.finished stopped).1
  have stopped_of (done : q.done = true) : q.running = false := by
    cases running : q.running with
    | false => rfl
    | true =>
      rw [(sound.running running).1] at done
      cases done
  refine ⟨?_, ⟨min q.nextIndex ids.length, Nat.min_le_right _ _, sound.starts⟩, sound.wanted,
    ?_, ?_, ?_, ?_, ?_⟩
  · have flying : q.inFlight ≤ q.workers.length := List.countP_le_length
    rw [sound.workers] at flying
    omega
  · cases running : q.running with
    | true =>
      rw [(sound.running running).2]
      exact Nat.zero_le 1
    | false => exact Nat.le_of_eq (sound.finished running).2.1
  · constructor
    · intro done
      exact (sound.finished (stopped_of done)).2.1
    · intro once
      cases running : q.running with
      | false => exact done_of running
      | true =>
        rw [(sound.running running).2] at once
        cases once
  · intro done
    obtain ⟨-, -, all⟩ := sound.finished (stopped_of done)
    refine ⟨?_, ?_, ?_⟩
    · apply List.countP_eq_zero.mpr
      intro worker member
      rw [all worker member]
      exact Bool.noConfusion
    · intro start member
      have listed := List.mem_map_of_mem (f := (·.index)) member
      rw [sound.starts, List.mem_range] at listed
      rcases sound.settled _ listed with settled | sending
      · exact settled
      · cases all _ sending
    · intro going
      have inside : 0 < q.workers.length := by
        rw [sound.workers]
        omega
      have member := List.getElem_mem inside
      have returned := sound.returned (all _ member ▸ member)
      rw [going] at returned
      rcases returned with no | exhausted
      · cases no
      · rw [sound.starts, Nat.min_eq_right exhausted]
  · intro quiet free
    cases running : q.running with
    | false => exact done_of running
    | true =>
      have paused := (sound.waiting (quiet.2 running)).1
      rw [free] at paused
      cases paused
  · intro meets
    have unpaused : Unpaused start := by
      refine ⟨fun _ member => (nomatch member), ?_⟩
      intro _
      exact .inl rfl
    exact (@Meets.keeps _ _ step Fits Unpaused (fun _ _ fits => Unpaused.step fits) ops start meets
      unpaused).starts

theorem two_items_run :
    let q := runAll step [.proceed 0, .pause, .settle 0 .result, .resume, .proceed 0,
      .settle 0 (.error "refused"), .proceed 0, .finish] (createTransferQueue ["a", "b"] 1)
    q.done = true ∧ ∀ start ∈ q.starts, start.paused = false := by
  intro q
  have all := queue_runs_items ["a", "b"] 1 (Nat.le_refl 1) [.proceed 0, .pause, .settle 0 .result,
    .resume, .proceed 0, .settle 0 (.error "refused"), .proceed 0, .finish]
  exact ⟨by decide, all.2.2.2.2.2.2.2 (by decide)⟩

/-- A pause behind a resume comes too late for the worker that was woken, and so does one that comes
before a worker has taken its first item. -/
theorem paused_queue_starts_item :
    (let q := runAll step [.proceed 0, .pause, .settle 0 .result, .resume, .pause, .proceed 0]
      (createTransferQueue ["a", "b"] 1)
    ⟨1, true, false⟩ ∈ q.starts) ∧
    (let q := runAll step [.proceed 0, .pause, .proceed 1] (createTransferQueue ["a", "b"] 2)
    ⟨1, true, false⟩ ∈ q.starts) := by
  decide

end TransferQueue

end Tomb.Spume.Transfers
