import Mathlib.Data.List.Dedup
import Mathlib.Data.List.Perm.Subperm
import Mathlib.Logic.Relation

/-! Reachability in a finite relation: what a worklist computes, and relations without cycles. -/
namespace Tomb.Lib
open Relation

variable {α : Type}

def Acyclic (r : α → α → Prop) : Prop := ∀ x, ¬TransGen r x x

namespace Acyclic

theorem mono {r r' : α → α → Prop} (acyclic : Acyclic r) (fewer : ∀ x y, r' x y → r x y) :
    Acyclic r' :=
  fun x cycle => acyclic x (TransGen.mono fewer x x cycle)

def addPair (r : α → α → Prop) (a b : α) (x y : α) : Prop := r x y ∨ (x = a ∧ y = b)

theorem transGen_addPair {r : α → α → Prop} {a b x y : α} (path : TransGen (addPair r a b) x y) :
    TransGen r x y ∨ (ReflTransGen r x a ∧ ReflTransGen r b y) := by
  induction path with
  | single first =>
    obtain old | ⟨rfl, rfl⟩ := first
    · exact .inl (.single old)
    · exact .inr ⟨.refl, .refl⟩
  | tail path last ih =>
    obtain old | ⟨rfl, rfl⟩ := last
    · obtain avoids | ⟨before, behind⟩ := ih
      · exact .inl (avoids.tail old)
      · exact .inr ⟨before, behind.tail old⟩
    · obtain avoids | ⟨before, -⟩ := ih
      · exact .inr ⟨avoids.to_reflTransGen, .refl⟩
      · exact .inr ⟨before, .refl⟩

theorem addPair_iff {r : α → α → Prop} (acyclic : Acyclic r) (a b : α) :
    Acyclic (addPair r a b) ↔ a ≠ b ∧ ¬TransGen r b a := by
  have new : addPair r a b a b := .inr ⟨rfl, rfl⟩
  refine ⟨fun whole => ⟨?_, fun back => ?_⟩, fun ⟨apart, noWay⟩ x cycle => ?_⟩
  · rintro rfl
    exact whole a (.single new)
  · exact whole a ((TransGen.single new).trans (TransGen.mono (fun _ _ => .inl) b a back))
  · obtain old | ⟨before, behind⟩ := transGen_addPair cycle
    · exact acyclic x old
    · have way : ReflTransGen r b a := behind.trans before
      obtain same | path := reflTransGen_iff_eq_or_transGen.mp way
      · exact apart same
      · exact noWay path

end Acyclic

section Worklist

variable [DecidableEq α] (next : α → List α)

/-- Take the elements of the queue one by one, and queue their successors that were not seen. -/
@[grind =] def visit : (fuel : Nat) → (queue seen : List α) → List α
  | 0, _, seen => seen
  | _ + 1, [], seen => seen
  | fuel + 1, x :: queue, seen =>
    let new := ((next x).filter (· ∉ seen)).dedup
    visit fuel (queue ++ new) (seen ++ new)

/-- What is reached from the roots, where all successors are among finitely many elements. -/
def reached (all roots : List α) : List α := visit next all.length roots.dedup roots.dedup

variable {next}

theorem subset_visit (fuel : Nat) (queue seen : List α) : seen ⊆ visit next fuel queue seen := by
  fun_induction visit next fuel queue seen with
  | case1 => exact List.Subset.refl _
  | case2 => exact List.Subset.refl _
  | case3 =>
    rename_i ih
    exact List.Subset.trans (List.subset_append_left ..) ih

theorem visit_sound {P : α → Prop} (inherits : ∀ x y, P x → y ∈ next x → P y) (fuel : Nat)
    (queue seen : List α) (queued : queue ⊆ seen) (holds : ∀ x ∈ seen, P x) :
    ∀ x ∈ visit next fuel queue seen, P x := by
  fun_induction visit next fuel queue seen with
  | case1 => exact holds
  | case2 => exact holds
  | case3 fuel x queue seen new ih =>
    obtain ⟨head, tail⟩ := List.cons_subset.mp queued
    refine ih (List.append_subset.mpr ⟨?_, List.subset_append_right ..⟩) fun y member => ?_
    · exact List.Subset.trans tail (List.subset_append_left ..)
    · obtain old | fresh := List.mem_append.mp member
      · exact holds y old
      · have successor := (List.mem_filter.mp (List.mem_dedup.mp fresh)).1
        exact inherits x y (holds x head) successor

theorem visit_closed {all : List α} (inside : ∀ x, next x ⊆ all) (fuel : Nat) (queue seen : List α)
    (nodup : seen.Nodup) (within : seen ⊆ all) (enough : all.length + queue.length ≤ fuel + seen.length)
    (explored : ∀ x ∈ seen, x ∈ queue ∨ next x ⊆ seen) :
    ∀ x ∈ visit next fuel queue seen, next x ⊆ visit next fuel queue seen := by
  have few {seen : List α} (nodup : seen.Nodup) (within : seen ⊆ all) :
      seen.length ≤ all.length := (List.subperm_of_subset nodup within).length_le
  fun_induction visit next fuel queue seen with
  | case1 queue seen =>
    have short := few nodup within
    have empty : queue = [] := List.length_eq_zero_iff.mp (by omega)
    rw [empty] at explored
    exact fun x member => (explored x member).resolve_left List.not_mem_nil
  | case2 fuel seen =>
    exact fun x member => (explored x member).resolve_left List.not_mem_nil
  | case3 fuel x queue seen new ih =>
    have fresh {y : α} (member : y ∈ new) : y ∈ next x ∧ y ∉ seen := by
      simpa only [decide_eq_true_eq] using List.mem_filter.mp (List.mem_dedup.mp member)
    refine ih ?_ ?_ ?_ ?_
    · refine nodup.append (List.nodup_dedup _) fun y old member => ?_
      exact (fresh member).2 old
    · exact List.append_subset.mpr ⟨within, fun y member => inside x (fresh member).1⟩
    · simp only [List.length_append, List.length_cons] at enough ⊢
      omega
    · intro y member
      obtain old | member := List.mem_append.mp member
      · obtain queued | done := explored y old
        · obtain rfl | later := List.mem_cons.mp queued
          · refine .inr fun z successor => List.mem_append.mpr ?_
            by_cases known : z ∈ seen
            · exact .inl known
            · refine .inr (List.mem_dedup.mpr (List.mem_filter.mpr ⟨successor, ?_⟩))
              exact decide_eq_true known
          · exact .inl (List.mem_append_left _ later)
        · exact .inr (List.Subset.trans done (List.subset_append_left ..))
      · exact .inl (List.mem_append_right _ member)

theorem mem_reached {all : List α} (inside : ∀ x, next x ⊆ all) {roots : List α} (within : roots ⊆ all)
    (y : α) : y ∈ reached next all roots ↔
      ∃ root ∈ roots, ReflTransGen (fun x y => y ∈ next x) root y := by
  constructor
  · intro member
    have sound : ∀ x ∈ reached next all roots,
        ∃ root ∈ roots, ReflTransGen (fun x y => y ∈ next x) root x := by
      refine visit_sound ?_ _ _ _ (List.Subset.refl _) ?_
      · rintro x y ⟨root, isRoot, way⟩ successor
        exact ⟨root, isRoot, way.tail successor⟩
      · intro x member
        exact ⟨x, List.mem_dedup.mp member, .refl⟩
    exact sound y member
  · rintro ⟨root, isRoot, way⟩
    have closed := visit_closed inside all.length roots.dedup roots.dedup (List.nodup_dedup _)
      (List.Subset.trans (List.dedup_subset _) within) (Nat.le_refl _) fun x member => .inl member
    induction way with
    | refl => exact subset_visit _ _ _ (List.mem_dedup.mpr isRoot)
    | tail _ successor ih => exact closed _ ih successor

end Worklist

end Tomb.Lib
