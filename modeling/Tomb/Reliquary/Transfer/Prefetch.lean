import Mathlib.Algebra.Order.Ring.Unbundled.Rat
import Mathlib.Algebra.Ring.Rat
import Mathlib.Data.List.Perm.Basic
import Tomb.Lib.Entries
import Tomb.Lib.Runs

/-! The prefetcher. Each call of `run` begins an execution that goes on beside the earlier ones; they
all call back the caller, who may call `run` again out of a callback. A step of an execution reaches at
most to the end of its next callback. -/
namespace Tomb.Reliquary.Transfer.Prefetch
open Tomb.Lib

variable {α : Type}

structure PrefetchOptions (α : Type) where
  budget : Rat
  costOf : α → Rat
  concurrency : Nat := 3

/-- Where an execution is: in the loop that selects the items, between an item's cost and its
`onPending`, before the next batch of the rest, in the midst of starting a batch, waiting for it, or
settling what it does not fetch any more. -/
inductive Phase (α : Type) where
  | selecting (items : List α) (budget : Rat) (selected : List α)
  | costed (item : α) (items : List α) (budget : Rat) (selected : List α)
  | head (rest : List α)
  | starting (batch inFlight rest : List α)
  | waiting (inFlight rest : List α)
  | draining (rest : List α)
  | returned (complete : Bool)
  deriving DecidableEq

def Phase.owed : Phase α → List α
  | .selecting _ _ selected | .costed _ _ _ selected => selected
  | .head rest | .draining rest => rest
  | .starting batch inFlight rest => inFlight ++ (batch ++ rest)
  | .waiting inFlight rest => inFlight ++ rest
  | .returned _ => []

@[grind =] def Phase.inFlight : Phase α → List α
  | .starting _ inFlight _ | .waiting inFlight _ => inFlight
  | _ => []

/-- The next test for a newer run comes before anything that such a run forbids, and nothing is
selected that it would forget. -/
def Phase.calm : Phase α → Bool
  | .selecting items _ selected => items.isEmpty || selected.isEmpty
  | .costed _ items _ _ => items.isEmpty
  | .starting batch _ _ => batch.isEmpty
  | _ => true

@[grind =] def Phase.left : Phase α → Nat
  | .selecting items _ selected => 7 * items.length + 5 * selected.length + 2
  | .costed _ items _ selected => 7 * items.length + 5 * selected.length + 8
  | .head rest => 5 * rest.length + 1
  | .starting batch inFlight rest => 2 * batch.length + inFlight.length + 5 * rest.length + 3
  | .waiting inFlight rest => inFlight.length + 5 * rest.length + 2
  | .draining rest => rest.length + 1
  | .returned _ => 0

structure Execution (α : Type) where
  items : List α
  options : PrefetchOptions α
  phase : Phase α
  (pending fetched settled : List α)
  /-- The items whose fetch it has begun after a newer run. -/
  late : List α

namespace Execution

@[grind =] def fresh (items : List α) (options : PrefetchOptions α) : Execution α :=
  ⟨items, options, .selecting items options.budget [], [], [], [], []⟩

@[grind =] def step (current : Bool) (r : Execution α) : Execution α :=
  match r.phase with
  | .selecting [] _ selected => { r with phase := .head selected }
  | .selecting (item :: items) budget selected =>
    if current = false then { r with phase := .returned false }
    else if budget ≤ 0 then { r with phase := .head selected }
    else { r with phase := .costed item items (budget - r.options.costOf item) selected }
  | .costed item items budget selected =>
    { r with phase := .selecting items budget (selected ++ [item]), pending := r.pending ++ [item] }
  | .head [] => { r with phase := .returned true }
  | .head (item :: rest) =>
    if current = false then { r with phase := .draining (item :: rest) }
    else
      let (batch, later) := (item :: rest).splitAt r.options.concurrency
      { r with phase := .starting batch [] later }
  | .starting [] inFlight rest => { r with phase := .waiting inFlight rest }
  | .starting (item :: batch) inFlight rest =>
    { r with
      phase := .starting batch (inFlight ++ [item]) rest
      fetched := r.fetched ++ [item]
      late := if current then r.late else r.late ++ [item] }
  | .waiting [] rest => { r with phase := .head rest }
  | .waiting (_ :: _) _ => r
  | .draining [] => { r with phase := .returned false }
  | .draining (item :: rest) =>
    { r with phase := .draining rest, settled := r.settled ++ [item] }
  | .returned _ => r

def moves (r : Execution α) : Bool :=
  match r.phase with
  | .waiting inFlight _ => inFlight.isEmpty
  | .returned _ => false
  | _ => true

variable [DecidableEq α]

@[grind =] def settle (item : α) (r : Execution α) : Execution α :=
  match r.phase with
  | .starting batch inFlight rest =>
    if item ∈ inFlight then
      { r with phase := .starting batch (inFlight.erase item) rest, settled := r.settled ++ [item] }
    else r
  | .waiting inFlight rest =>
    if item ∈ inFlight then
      { r with phase := .waiting (inFlight.erase item) rest, settled := r.settled ++ [item] }
    else r
  | _ => r

end Execution

inductive Op (α : Type) where
  | run (items : List α) (options : PrefetchOptions α)
  | step (execution : Nat)
  | settle (execution : Nat) (item : α)

def Op.uses : Op α → Nat
  | .run .. => 0
  | .step _ | .settle .. => 1

def Op.gives : Op α → Nat
  | .run items _ => 7 * items.length + 2
  | .step _ | .settle .. => 0

abbrev Prefetcher (α : Type) := List (Execution α)

namespace Prefetcher

@[grind =] def isCurrent (s : Prefetcher α) (i : Nat) : Bool := i + 1 = s.length

variable [DecidableEq α]

def step : Op α → Prefetcher α → Prefetcher α
  | .run items options, s => s ++ [.fresh items options]
  | .step i, s => s.modify i (Execution.step (isCurrent s i))
  | .settle i item, s => s.modify i (Execution.settle item)

def enabled (s : Prefetcher α) : Op α → Bool
  | .run .. => true
  | .step i => (s[i]?).any (·.moves)
  | .settle i item => (s[i]?).any fun r => item ∈ r.phase.inFlight

/-- A new run begins with a positive limit, and not while the one before it is in the loop that selects
items or in the midst of starting a batch. -/
def fits (s : Prefetcher α) (op : Op α) : Bool :=
  enabled s op &&
    match op with
    | .run _ options => 0 < options.concurrency && (s.getLast?).all (·.phase.calm)
    | _ => true

end Prefetcher

def Allowed (costOf : α → Rat) (budget : Rat) (items : List α) : Prop :=
  ∀ before item, before ++ [item] <+: items → 0 < budget - (before.map costOf).sum

structure Execution.Balanced [DecidableEq α] (r : Execution α) : Prop where
  paired : ∀ item, r.settled.count item ≤ r.pending.count item
  all : ∀ complete, r.phase = .returned complete → r.settled.Perm r.pending
  limited : r.phase.inFlight.length ≤ r.options.concurrency
  none_late : r.late = []
  longest : r.phase = .returned true → r.fetched <+: r.items ∧
    Allowed r.options.costOf r.options.budget r.fetched ∧
    ∀ items, items <+: r.items → Allowed r.options.costOf r.options.budget items →
      items.length ≤ r.fetched.length

/-- What holds of every execution, and that it goes on until it returns. -/
structure Prefetcher.Balanced [DecidableEq α] (s : Prefetcher α) : Prop where
  each : ∀ r ∈ s, r.Balanced
  goes_on : ∀ i r, s[i]? = some r → (∀ complete, r.phase ≠ .returned complete) →
    ∃ op, Prefetcher.enabled s op = true ∧ (op = .step i ∨ ∃ item, op = .settle i item)

/-! What an execution selects is known from the start. -/

@[grind =] def affordable (costOf : α → Rat) : Rat → List α → List α
  | _, [] => []
  | budget, item :: items =>
    if budget ≤ 0 then [] else item :: affordable costOf (budget - costOf item) items

section
variable {costOf : α → Rat}

theorem affordable_begins (budget : Rat) (items : List α) :
    affordable costOf budget items <+: items := by
  induction items generalizing budget with
  | nil => exact List.prefix_rfl
  | cons item items ih =>
    unfold affordable
    split
    · exact List.nil_prefix
    · exact (List.prefix_cons_inj item).mpr (ih _)

theorem Allowed.tail {budget : Rat} {item : α} {items : List α}
    (allowed : Allowed costOf budget (item :: items)) :
    Allowed costOf (budget - costOf item) items := by
  intro before last initial
  have lasts := allowed (item :: before) last ((List.prefix_cons_inj item).mpr initial)
  rw [List.map_cons, List.sum_cons] at lasts
  rw [sub_sub]
  exact lasts

theorem affordable_allowed (budget : Rat) (items : List α) :
    Allowed costOf budget (affordable costOf budget items) := by
  induction items generalizing budget with
  | nil =>
    intro before item initial
    exact absurd (List.prefix_nil.mp initial) (by simp)
  | cons item items ih =>
    unfold affordable
    split
    · intro before item initial
      exact absurd (List.prefix_nil.mp initial) (by simp)
    · rename_i lasts
      intro before last initial
      cases before with
      | nil => simpa using lasts
      | cons first before =>
        obtain ⟨rfl, initial⟩ := List.cons_prefix_cons.mp initial
        rw [List.map_cons, List.sum_cons, ← sub_sub]
        exact ih _ before last initial

theorem length_le_affordable {budget : Rat} {items part : List α} (initial : part <+: items)
    (allowed : Allowed costOf budget part) : part.length ≤ (affordable costOf budget items).length := by
  induction items generalizing budget part with
  | nil => rw [List.prefix_nil.mp initial]; exact Nat.zero_le _
  | cons item items ih =>
    cases part with
    | nil => exact Nat.zero_le _
    | cons first part =>
      obtain ⟨rfl, shorter⟩ := List.cons_prefix_cons.mp initial
      have lasts := allowed [] first ((List.prefix_cons_inj first).mpr List.nil_prefix)
      rw [List.map_nil, List.sum_nil, sub_zero] at lasts
      rw [affordable, if_neg (not_le.mpr lasts), List.length_cons, List.length_cons]
      exact Nat.succ_le_succ (ih shorter allowed.tail)

end

namespace Execution

@[grind =] def Planned (r : Execution α) : Prop :=
  let plan := affordable r.options.costOf r.options.budget r.items
  match r.phase with
  | .selecting items budget selected =>
    r.fetched = [] ∧ selected ++ affordable r.options.costOf budget items = plan
  | .costed item items budget selected =>
    r.fetched = [] ∧ selected ++ item :: affordable r.options.costOf budget items = plan
  | .head rest | .waiting _ rest => r.fetched ++ rest = plan
  | .starting batch _ rest => r.fetched ++ (batch ++ rest) = plan
  | .returned true => r.fetched = plan
  | .draining _ | .returned false => True

@[grind =] def width (r : Execution α) : Nat :=
  match r.phase with
  | .starting batch inFlight _ => batch.length + inFlight.length
  | .waiting inFlight _ => inFlight.length
  | _ => 0

structure Invariant (current : Bool) (r : Execution α) : Prop where
  owes : r.pending.Perm (r.settled ++ r.phase.owed)
  narrow : r.width ≤ r.options.concurrency
  none_late : r.late = []
  calm : current = true ∨ r.phase.calm = true
  positive : 0 < r.options.concurrency
  planned : r.Planned

theorem fresh_invariant {items : List α} {options : PrefetchOptions α}
    (positive : 0 < options.concurrency) : (fresh items options).Invariant true where
  owes := .refl _
  narrow := Nat.zero_le _
  none_late := rfl
  calm := .inl rfl
  positive := positive
  planned := ⟨rfl, rfl⟩

variable {current : Bool} {r : Execution α}

theorem Invariant.supersede (inv : r.Invariant true) (calm : r.phase.calm = true) :
    r.Invariant false :=
  { inv with calm := .inr calm }

theorem Invariant.step (inv : r.Invariant current) : (r.step current).Invariant current := by
  obtain ⟨items, options, phase, pending, fetched, settled, late⟩ := r
  obtain ⟨owes, narrow, none_late, calm, positive, planned⟩ := inv
  cases phase with
  | selecting rest budget selected =>
    obtain ⟨none, plan⟩ := planned
    dsimp only at none plan
    cases rest with
    | nil =>
      refine ⟨owes, Nat.zero_le _, none_late, .inr rfl, positive, ?_⟩
      rw [affordable, List.append_nil] at plan
      exact (congrArg (· ++ selected) none).trans plan
    | cons item rest =>
      cases current with
      | false =>
        have empty : selected = [] := List.isEmpty_iff.mp (calm.resolve_left Bool.false_ne_true)
        exact ⟨empty ▸ owes, Nat.zero_le _, none_late, .inr rfl, positive, trivial⟩
      | true =>
        rw [affordable] at plan
        simp only [Execution.step, Bool.true_eq_false, if_false]
        split at plan
        · rename_i spent
          rw [if_pos spent]
          refine ⟨owes, Nat.zero_le _, none_late, .inr rfl, positive, ?_⟩
          rw [List.append_nil] at plan
          exact (congrArg (· ++ selected) none).trans plan
        · rename_i lasts
          rw [if_neg lasts]
          exact ⟨owes, Nat.zero_le _, none_late, .inl rfl, positive, none, plan⟩
  | costed item rest budget selected =>
    obtain ⟨none, plan⟩ := planned
    refine ⟨?_, Nat.zero_le _, none_late, calm.imp_right fun calm => ?_, positive, none, ?_⟩
    · exact (owes.append_right [item]).trans (.of_eq (List.append_assoc ..))
    · exact (Bool.or_eq_true ..).mpr (.inl calm)
    · exact (List.append_assoc ..).trans plan
  | head rest =>
    cases rest with
    | nil =>
      refine ⟨owes, Nat.zero_le _, none_late, .inr rfl, positive, ?_⟩
      exact (List.append_nil _).symm.trans planned
    | cons item rest =>
      cases current with
      | false => exact ⟨owes, Nat.zero_le _, none_late, .inr rfl, positive, trivial⟩
      | true =>
        refine ⟨?_, ?_, none_late, .inl rfl, positive, ?_⟩
        · simpa [Execution.step, Phase.owed] using owes
        · simp [Execution.step, width]
        · simpa [Execution.step, Planned] using planned
  | starting batch inFlight rest =>
    cases batch with
    | nil => exact ⟨owes, by simpa [Execution.step, width] using narrow, none_late, .inr rfl, positive, planned⟩
    | cons item batch =>
      have now : current = true := calm.resolve_right Bool.false_ne_true
      refine ⟨?_, ?_, ?_, .inl now, positive, ?_⟩
      · simpa [Execution.step, Phase.owed] using owes
      · simp [Execution.step, width] at narrow ⊢
        omega
      · simpa [Execution.step, now] using none_late
      · simpa [Execution.step, Planned] using planned
  | waiting inFlight rest =>
    cases inFlight with
    | nil => exact ⟨owes, Nat.zero_le _, none_late, .inr rfl, positive, planned⟩
    | cons item inFlight => exact ⟨owes, narrow, none_late, calm, positive, planned⟩
  | draining rest =>
    cases rest with
    | nil => exact ⟨owes, Nat.zero_le _, none_late, .inr rfl, positive, trivial⟩
    | cons item rest =>
      refine ⟨?_, Nat.zero_le _, none_late, .inr rfl, positive, trivial⟩
      simpa [Execution.step, Phase.owed] using owes
  | returned complete => exact ⟨owes, narrow, none_late, calm, positive, planned⟩

theorem Invariant.settle [DecidableEq α] (inv : r.Invariant current) (item : α) :
    (r.settle item).Invariant current := by
  obtain ⟨items, options, phase, pending, fetched, settled, late⟩ := r
  obtain ⟨owes, narrow, none_late, calm, positive, planned⟩ := inv
  have moved : ∀ inFlight others : List α, item ∈ inFlight →
      pending.Perm (settled ++ (inFlight ++ others)) →
      pending.Perm (settled ++ [item] ++ (inFlight.erase item ++ others)) := by
    intro inFlight others member owes
    refine owes.trans ?_
    rw [List.append_assoc, List.singleton_append, ← List.cons_append]
    exact ((List.perm_cons_erase member).append_right others).append_left settled
  cases phase with
  | starting batch inFlight rest =>
    simp only [Execution.settle]
    split
    · rename_i member
      refine ⟨moved _ _ member owes, ?_, none_late, calm, positive, planned⟩
      have fewer := List.length_erase_le (a := item) (l := inFlight)
      simp only [width] at narrow ⊢
      omega
    · exact ⟨owes, narrow, none_late, calm, positive, planned⟩
  | waiting inFlight rest =>
    simp only [Execution.settle]
    split
    · rename_i member
      refine ⟨moved _ _ member owes, ?_, none_late, calm, positive, planned⟩
      exact List.length_erase_le.trans narrow
    · exact ⟨owes, narrow, none_late, calm, positive, planned⟩
  | _ => exact ⟨owes, narrow, none_late, calm, positive, planned⟩

theorem Invariant.balanced [DecidableEq α] (inv : r.Invariant current) : r.Balanced where
  paired item := by
    rw [inv.owes.count_eq, List.count_append]
    exact Nat.le_add_right _ _
  all complete returned := by
    have owes := inv.owes
    rw [returned] at owes
    exact (owes.trans (.of_eq (List.append_nil _))).symm
  limited := by
    refine Nat.le_trans ?_ inv.narrow
    unfold Phase.inFlight width
    split <;> simp
  none_late := inv.none_late
  longest returned := by
    have plan := inv.planned
    simp only [Planned, returned] at plan
    rw [plan]
    exact ⟨affordable_begins _ _, affordable_allowed _ _,
      fun items initial allowed => length_le_affordable initial allowed⟩

/-- An execution that has not returned can take a step, or waits for a fetch. -/
theorem goes_on (r : Execution α) (goes : ∀ complete, r.phase ≠ .returned complete) :
    r.moves = true ∨ ∃ item, item ∈ r.phase.inFlight := by
  cases phase : r.phase with
  | waiting inFlight rest =>
    cases inFlight with
    | nil => exact .inl (by rw [moves, phase]; rfl)
    | cons item inFlight => exact .inr ⟨item, List.mem_cons_self⟩
  | returned complete => exact absurd phase (goes complete)
  | _ => exact .inl (by rw [moves, phase])

theorem left_step (current : Bool) (positive : 0 < r.options.concurrency) (moves : r.moves = true) :
    (r.step current).phase.left < r.phase.left := by
  obtain ⟨items, options, phase, pending, fetched, settled, late⟩ := r
  cases phase with
  | selecting rest budget selected =>
    cases rest with
    | nil => simp [Execution.step, Phase.left]
    | cons item rest =>
      simp only [Execution.step]
      split
      · simp [Phase.left]
      · split <;> (simp only [Phase.left, List.length_cons]; omega)
  | costed item rest budget selected =>
    simp only [Execution.step, Phase.left, List.length_append, List.length_singleton]
    omega
  | head rest =>
    cases rest with
    | nil => exact Nat.zero_lt_one
    | cons item rest =>
      simp only [Execution.step]
      split
      · simp only [Phase.left, List.length_cons]
        omega
      · simp only [List.splitAt_eq, Phase.left, List.length_take, List.length_drop,
          List.length_cons, List.length_nil]
        dsimp only at positive
        omega
  | starting batch inFlight rest =>
    cases batch with
    | nil => simp only [Execution.step, Phase.left, List.length_nil]; omega
    | cons item batch =>
      simp only [Execution.step, Phase.left, List.length_append, List.length_cons, List.length_nil]
      omega
  | waiting inFlight rest =>
    cases inFlight with
    | nil => simp [Execution.step, Phase.left]
    | cons item inFlight => exact Bool.noConfusion moves
  | draining rest => cases rest <;> simp [Execution.step, Phase.left]
  | returned complete => exact Bool.noConfusion moves

theorem left_settle [DecidableEq α] {item : α} (member : item ∈ r.phase.inFlight) :
    (r.settle item).phase.left < r.phase.left := by
  obtain ⟨items, options, phase, pending, fetched, settled, late⟩ := r
  cases phase with
  | starting batch inFlight rest | waiting inFlight rest =>
    have fewer := List.length_erase_of_mem member
    have some := List.length_pos_of_mem member
    simp only [Phase.inFlight] at fewer some member
    simp only [Execution.settle, if_pos member, Phase.left, fewer]
    omega
  | _ => exact absurd member List.not_mem_nil

end Execution

namespace Prefetcher

variable {s : Prefetcher α}

def Invariant (s : Prefetcher α) : Prop :=
  ∀ i (r : Execution α), s[i]? = some r → r.Invariant (s.isCurrent i)

theorem Invariant.modify (inv : s.Invariant) {i : Nat} {f : Execution α → Execution α}
    (keeps : ∀ r, s[i]? = some r → (f r).Invariant (s.isCurrent i)) :
    Invariant (s.modify i f) := by
  intro j r found
  rw [isCurrent, List.length_modify]
  rw [List.getElem?_modify] at found
  split at found
  · rename_i same
    obtain ⟨old, there, rfl⟩ := Option.map_eq_some_iff.mp found
    subst same
    exact keeps old there
  · obtain ⟨old, there, rfl⟩ := Option.map_eq_some_iff.mp found
    exact inv j old there

theorem Invariant.run (inv : s.Invariant) {items : List α} {options : PrefetchOptions α}
    (positive : 0 < options.concurrency) (calm : (s.getLast?).all (·.phase.calm) = true) :
    Invariant (s ++ [.fresh items options]) := by
  intro i r found
  rcases Nat.lt_trichotomy i s.length with lower | rfl | higher
  · rw [List.getElem?_append_left lower] at found
    have old := inv i r found
    have other : isCurrent (s ++ [.fresh items options]) i = false := by
      simp [isCurrent]
      omega
    rw [other]
    cases current : s.isCurrent i with
    | false => rwa [current] at old
    | true =>
      rw [current] at old
      refine old.supersede ?_
      have last : i = s.length - 1 := by
        have := of_decide_eq_true current
        omega
      rw [List.getLast?_eq_getElem?, ← last, found] at calm
      exact calm
  · rw [List.getElem?_concat_length] at found
    obtain rfl := Option.some.inj found
    have now : isCurrent (s ++ [.fresh items options]) s.length = true := by simp [isCurrent]
    rw [now]
    exact Execution.fresh_invariant positive
  · rw [List.getElem?_eq_none (by simp; omega)] at found
    cases found

variable [DecidableEq α]

theorem Invariant.step (inv : s.Invariant) {op : Op α} (fits : s.fits op = true) :
    Invariant (step op s) := by
  obtain ⟨-, allowed⟩ := Bool.and_eq_true_iff.mp fits
  cases op with
  | run items options =>
    obtain ⟨positive, calm⟩ := Bool.and_eq_true_iff.mp allowed
    exact inv.run (of_decide_eq_true positive) calm
  | step i => exact inv.modify fun r found => (inv i r found).step
  | settle i item => exact inv.modify fun r found => (inv i r found).settle item

theorem Invariant.balanced (inv : s.Invariant) : s.Balanced where
  each r member := by
    obtain ⟨i, found⟩ := List.mem_iff_getElem?.mp member
    exact (inv i r found).balanced
  goes_on i r found goes := by
    rcases r.goes_on goes with moves | ⟨item, waits⟩
    · exact ⟨.step i, by rw [enabled, found]; exact moves, .inl rfl⟩
    · exact ⟨.settle i item, by rw [enabled, found]; exact decide_eq_true waits, .inr ⟨item, rfl⟩⟩

def work (s : Prefetcher α) : Nat := (s.map (·.phase.left)).sum

theorem work_step (inv : s.Invariant) {op : Op α} (fits : s.fits op = true) :
    (step op s).work + op.uses ≤ s.work + op.gives := by
  obtain ⟨enabled, -⟩ := Bool.and_eq_true_iff.mp fits
  cases op with
  | run items options =>
    simp [step, work, Execution.fresh, Phase.left, Op.uses, Op.gives]
  | step i =>
    obtain ⟨r, found, moves⟩ := (Option.any_eq_true ..).mp enabled
    have sum := sum_map_modify (f := Execution.step (s.isCurrent i)) (·.phase.left) found
    have less := r.left_step (s.isCurrent i) (inv i r found).positive moves
    simp only [step, work, Op.uses, Op.gives]
    omega
  | settle i item =>
    obtain ⟨r, found, waits⟩ := (Option.any_eq_true ..).mp enabled
    have sum := sum_map_modify (f := Execution.settle item) (·.phase.left) found
    have less := r.left_settle (of_decide_eq_true waits)
    simp only [step, work, Op.uses, Op.gives]
    omega

/-- In every run whose steps fit, every execution is balanced, and the executions take no more than
two steps, and seven for each of the candidates. -/
theorem balanced_of_run {ops taken : List (Op α)}
    (fits : Meets step (fun op s => fits s op = true) ops []) (initial : taken <+: ops) :
    Balanced (runAll step taken []) ∧ (taken.map Op.uses).sum ≤ (taken.map Op.gives).sum := by
  have start : Invariant ([] : Prefetcher α) := fun _ _ found => nomatch found
  have keeps : ∀ op (s : Prefetcher α), s.fits op = true → s.Invariant → Invariant (step op s) :=
    fun _ _ fits inv => inv.step fits
  have pays : ∀ op (s : Prefetcher α), s.fits op = true → s.Invariant →
      (step op s).work + op.uses ≤ s.work + op.gives := fun _ _ fits inv => work_step inv fits
  have now := fits.of_prefix initial
  refine ⟨(now.keeps keeps start).balanced, ?_⟩
  have charged := now.charged work Op.uses Op.gives keeps pays start
  have none : work ([] : Prefetcher α) = 0 := rfl
  omega

/-- A run of three items with a limit of two, superseded while it waits for the first two. -/
def supersededInTime : List (Op Nat) :=
  let costs : PrefetchOptions Nat := ⟨10, fun _ => 1, 2⟩
  [.run [1, 2, 3] costs, .step 0, .step 0, .step 0, .step 0, .step 0, .step 0, .step 0, .step 0,
    .step 0, .step 0, .step 0, .run [] costs, .settle 0 2, .settle 0 1, .step 0, .step 0, .step 0,
    .step 0]

theorem supersededInTime_balanced : Balanced (runAll step supersededInTime []) ∧
    (supersededInTime.map Op.uses).sum ≤ (supersededInTime.map Op.gives).sum :=
  balanced_of_run (by decide +kernel) List.prefix_rfl

def reentrant : List (Op Nat) :=
  let costs : PrefetchOptions Nat := ⟨10, fun _ => 1, 2⟩
  [.run [1, 2] costs, .step 0, .step 0, .run [] costs, .step 0]

theorem reentrant_forgets : ¬Balanced (runAll step reentrant []) := by
  intro balanced
  have seen : ((runAll step reentrant [])[0]?).map (fun r => (r.phase, r.pending, r.settled)) =
      some (.returned false, [1], []) := by decide
  obtain ⟨r, found, same⟩ := Option.map_eq_some_iff.mp seen
  simp only [Prod.mk.injEq] at same
  have all := (balanced.each r (List.mem_of_getElem? found)).all false same.1
  rw [same.2.1, same.2.2] at all
  exact absurd all.length_eq (by decide)

end Prefetcher

end Tomb.Reliquary.Transfer.Prefetch
