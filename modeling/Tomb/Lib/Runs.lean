import Mathlib.Algebra.Ring.Nat
import Mathlib.Data.List.Infix

/-! Runs of a deterministic machine under a list of operations, where each operation may have a
condition on the state that it meets. -/
namespace Tomb.Lib

variable {ο σ : Type} (step : ο → σ → σ)

def runAll (ops : List ο) (s : σ) : σ := ops.foldl (fun s op => step op s) s

@[simp] theorem runAll_nil (s : σ) : runAll step [] s = s := rfl

@[simp] theorem runAll_cons (op : ο) (rest : List ο) (s : σ) :
    runAll step (op :: rest) s = runAll step rest (step op s) := rfl

theorem runAll_append (ops rest : List ο) (s : σ) :
    runAll step (ops ++ rest) s = runAll step rest (runAll step ops s) :=
  List.foldl_append

theorem runAll_keeps {step : ο → σ → σ} {inv : σ → Prop} (keeps : ∀ op s, inv s → inv (step op s))
    (ops : List ο) {s : σ} (start : inv s) : inv (runAll step ops s) := by
  induction ops generalizing s with
  | nil => exact start
  | cons op rest ih => exact ih (keeps op s start)

/-- Every operation of the run fits the state that it meets. -/
def Meets (fits : ο → σ → Prop) : List ο → σ → Prop
  | [], _ => True
  | op :: rest, s => fits op s ∧ Meets fits rest (step op s)

instance decidableMeets (fits : ο → σ → Prop) [∀ op s, Decidable (fits op s)] :
    (ops : List ο) → (s : σ) → Decidable (Meets step fits ops s)
  | [], _ => .isTrue trivial
  | op :: rest, s =>
    have := decidableMeets fits rest (step op s)
    inferInstanceAs (Decidable (fits op s ∧ Meets step fits rest (step op s)))

variable {step}

variable {fits : ο → σ → Prop} {ops : List ο}

theorem Meets.imp {fits' : ο → σ → Prop} (weaker : ∀ op s, fits op s → fits' op s) {s : σ} (meets : Meets step fits ops s) : Meets step fits' ops s := by
  induction ops generalizing s with
  | nil => trivial
  | cons op rest ih => exact ⟨weaker op s meets.1, ih meets.2⟩

variable {inv : σ → Prop}

/-- The condition on the steps of a run may use what the run keeps. -/
theorem Meets.imp_keeping {fits' : ο → σ → Prop}
    (keeps : ∀ op s, fits op s → inv s → fits' op s ∧ inv (step op s)) {s : σ}
    (meets : Meets step fits ops s) (start : inv s) : Meets step fits' ops s := by
  induction ops generalizing s with
  | nil => trivial
  | cons op rest ih =>
    obtain ⟨now, kept⟩ := keeps op s meets.1 start
    exact ⟨now, ih meets.2 kept⟩

theorem Meets.of_prefix {taken : List ο} {s : σ}
    (meets : Meets step fits ops s) (initial : taken <+: ops) : Meets step fits taken s := by
  induction taken generalizing ops s with
  | nil => trivial
  | cons op rest ih =>
    obtain ⟨later, rfl⟩ := initial
    exact ⟨meets.1, ih meets.2 ⟨later, rfl⟩⟩

/-- An operation in the middle of the run fits the state that it meets. -/
theorem Meets.fits_at {before rest : List ο} {op : ο} {s : σ}
    (meets : Meets step fits (before ++ op :: rest) s) : fits op (runAll step before s) := by
  induction before generalizing s with
  | nil => exact meets.1
  | cons first before ih => exact ih meets.2

theorem Meets.keeps {fits : ο → σ → Prop} {inv : σ → Prop}
    (keeps : ∀ op s, fits op s → inv s → inv (step op s)) {ops : List ο} {s : σ}
    (meets : Meets step fits ops s) (start : inv s) : inv (runAll step ops s) := by
  induction ops generalizing s with
  | nil => exact start
  | cons op rest ih => exact ih meets.2 (keeps op s meets.1 start)

/-- Where an invariant makes a state good, and an operation that does not fit spoils it, the runs
that are good all along are those whose operations fit. -/
theorem meets_iff {good : σ → Prop} (enough : ∀ s, inv s → good s)
    (keeps : ∀ op s, fits op s → inv s → inv (step op s))
    (breaks : ∀ op s, inv s → good (step op s) → fits op s) {s : σ} (start : inv s) :
    Meets step fits ops s ↔ ∀ taken, taken <+: ops → good (runAll step taken s) := by
  constructor
  · intro meets taken initial
    exact enough _ ((meets.of_prefix initial).keeps keeps start)
  · intro all
    induction ops generalizing s with
    | nil => trivial
    | cons op rest ih =>
      have now := breaks op s start (all [op] (List.prefix_append [op] rest))
      refine ⟨now, ih (keeps op s now start) fun taken initial => ?_⟩
      exact all (op :: taken) (List.cons_prefix_cons.mpr ⟨rfl, initial⟩)

/-- What the operations of a run use of a measure is no more than what there was and what they
give. -/
theorem Meets.charged (measure : σ → Nat) (uses gives : ο → Nat)
    (keeps : ∀ op s, fits op s → inv s → inv (step op s))
    (pays : ∀ op s, fits op s → inv s → measure (step op s) + uses op ≤ measure s + gives op) {s : σ} (meets : Meets step fits ops s) (start : inv s) :
    measure (runAll step ops s) + (ops.map uses).sum ≤ measure s + (ops.map gives).sum := by
  induction ops generalizing s with
  | nil => exact Nat.le_refl _
  | cons op rest ih =>
    have later := ih meets.2 (keeps op s meets.1 start)
    have paid := pays op s meets.1 start
    rw [runAll_cons, List.map_cons, List.map_cons, List.sum_cons, List.sum_cons]
    omega

/-- A run is no longer than a measure that every fitting operation lowers. -/
theorem Meets.length_le (measure : σ → Nat) (keeps : ∀ op s, fits op s → inv s → inv (step op s))
    (falls : ∀ op s, fits op s → inv s → measure (step op s) < measure s) {s : σ}
    (meets : Meets step fits ops s) (start : inv s) : ops.length ≤ measure s := by
  have charged := meets.charged measure (fun _ => 1) (fun _ => 0) keeps falls start
  rw [List.map_const', List.map_const', List.sum_replicate_nat, List.sum_replicate_nat] at charged
  omega

end Tomb.Lib
