import Mathlib.Data.Set.Lattice
import Mathlib.Order.Bounds.Basic

/-! The greatest element of a set that may be empty. -/
namespace Tomb.Lib

variable {α : Type*} [LinearOrder α]

/-- `none` says that the set is empty, `some a` that `a` is its greatest element. -/
def IsMaximum : Option α → Set α → Prop
  | none, s => s = ∅
  | some a, s => IsGreatest s a

namespace IsMaximum

theorem none_empty : IsMaximum (none : Option α) ∅ := rfl

theorem singleton (a : α) : IsMaximum (some a) {a} := isGreatest_singleton

theorem of_option (a : Option α) : IsMaximum a {x | a = some x} := by
  cases a with
  | none => exact Set.eq_empty_of_forall_notMem fun x same => nomatch same
  | some x => exact ⟨rfl, fun y same => (Option.some.inj same).ge⟩

theorem merge {a b : Option α} {s t : Set α} (ha : IsMaximum a s) (hb : IsMaximum b t) :
    IsMaximum (a.merge max b) (s ∪ t) := by
  cases a with
  | none =>
    have empty : s = ∅ := ha
    subst empty
    cases b <;> simpa [Option.merge] using hb
  | some x =>
    cases b with
    | none =>
      have empty : t = ∅ := hb
      subst empty
      simpa [Option.merge] using ha
    | some y => exact IsGreatest.union ha hb

/-- Folding `merge` over a list collects the maximum of all the sets it stands for. -/
theorem foldl {ι : Type*} (value : ι → Option α) (set : ι → Set α)
    (each : ∀ i, IsMaximum (value i) (set i)) (items : List ι) {best : Option α} {s : Set α}
    (known : IsMaximum best s) :
    IsMaximum (items.foldl (fun best i => best.merge max (value i)) best)
      (s ∪ ⋃ i ∈ items, set i) := by
  induction items generalizing best s with
  | nil => simpa using known
  | cons item rest ih =>
    have step := ih (known.merge (each item))
    rw [Set.union_assoc] at step
    simpa using step

end IsMaximum

end Tomb.Lib
