import Mathlib.Data.List.Nodup
import Mathlib.Data.List.Pairwise
import Mathlib.Data.List.Perm.Basic
import Mathlib.Data.List.Perm.Subperm
import Mathlib.Data.List.Range

/-! Lists of positions that number what they belong to from one on, without a gap and without a
repetition. -/
namespace Tomb.Lib

@[grind =]
def ranks (start n : Nat) : List Int := (List.range n).map fun (i : Nat) => (start : Int) + i + 1

/-- The positions are those from one on, each of them once. -/
@[grind =] def Ranked (positions : List Int) : Prop := positions.Perm (ranks 0 positions.length)

@[simp] theorem length_ranks (start n : Nat) : (ranks start n).length = n := by
  rw [ranks, List.length_map, List.length_range]

theorem mem_ranks {start n : Nat} {p : Int} : p ∈ ranks start n ↔ (start : Int) < p ∧ p ≤ start + n := by
  simp only [ranks, List.mem_map, List.mem_range]
  constructor
  · rintro ⟨i, below, rfl⟩
    omega
  · rintro ⟨above, below⟩
    exact ⟨(p - start - 1).toNat, by omega, by omega⟩

theorem nodup_ranks (start n : Nat) : (ranks start n).Nodup := by
  refine List.Nodup.map (fun i j same => ?_) List.nodup_range
  omega

theorem ranks_add (start m n : Nat) : ranks start (m + n) = ranks start m ++ ranks (start + m) n := by
  rw [ranks, List.range_add, List.map_append, List.map_map]
  refine congrArg (_ ++ ·) (List.map_congr_left fun i _ => ?_)
  simp only [Function.comp_apply]
  omega

variable {positions : List Int}

theorem perm_ranks_iff {start n : Nat} (length : positions.length = n) :
    positions.Perm (ranks start n) ↔
      positions.Nodup ∧ ∀ p ∈ positions, (start : Int) < p ∧ p ≤ start + n := by
  constructor
  · intro same
    exact ⟨same.nodup_iff.mpr (nodup_ranks start n), fun p member =>
      mem_ranks.mp (same.mem_iff.mp member)⟩
  · rintro ⟨distinct, within⟩
    refine (List.subperm_of_subset distinct fun p member =>
      mem_ranks.mpr (within p member)).perm_of_length_le ?_
    rw [length_ranks, length]

theorem ranked_iff : Ranked positions ↔
    positions.Nodup ∧ ∀ p ∈ positions, 0 < p ∧ p ≤ positions.length := by
  rw [Ranked, perm_ranks_iff rfl]
  simp only [Int.natCast_zero, Int.zero_add]

theorem ranked_nil : Ranked [] := .refl _

theorem Ranked.perm {positions' : List Int} (ranked : Ranked positions)
    (same : positions.Perm positions') : Ranked positions' := by
  have length := same.length_eq
  rw [Ranked, ← length]
  exact same.symm.trans ranked

theorem Ranked.append {more : List Int} (ranked : Ranked positions)
    (behind : more.Perm (ranks positions.length more.length)) : Ranked (positions ++ more) := by
  rw [Ranked, List.length_append, ranks_add, Nat.zero_add]
  exact List.Perm.append ranked behind

def closeGap (removed p : Int) : Int := if removed < p then p - 1 else p

theorem Ranked.remove {removed : Int}
    (ranked : Ranked (removed :: positions)) : Ranked (positions.map (closeGap removed)) := by
  rw [ranked_iff] at ranked ⊢
  obtain ⟨distinct, within⟩ := ranked
  rw [List.nodup_cons] at distinct
  have own := within removed List.mem_cons_self
  have others (p : Int) (member : p ∈ positions) : p ≠ removed ∧ 0 < p ∧ p ≤ positions.length + 1 := by
    have bounds := within p (List.mem_cons_of_mem _ member)
    rw [List.length_cons] at bounds
    exact ⟨fun same => distinct.1 (same ▸ member), bounds.1, by omega⟩
  rw [List.length_cons] at own
  constructor
  · refine List.Nodup.map_on (fun p memberP q memberQ same => ?_) distinct.2
    have otherP := others p memberP
    have otherQ := others q memberQ
    unfold closeGap at same
    split at same <;> split at same <;> omega
  · intro p member
    obtain ⟨old, present, rfl⟩ := List.mem_map.mp member
    have other := others old present
    rw [List.length_map]
    unfold closeGap
    split <;> omega

theorem Ranked.mem_iff (ranked : Ranked positions) {p : Int} :
    p ∈ positions ↔ 0 < p ∧ p ≤ positions.length := by
  rw [List.Perm.mem_iff ranked, mem_ranks, Int.natCast_zero, Int.zero_add]

theorem Ranked.max (ranked : Ranked positions) :
    (positions ++ [0]).max? = some (positions.length : Int) := by
  rw [List.max?_eq_some_iff]
  constructor
  · rw [List.mem_append, List.mem_singleton, ranked.mem_iff]
    omega
  · intro p member
    rw [List.mem_append, List.mem_singleton, ranked.mem_iff] at member
    omega

end Tomb.Lib

/-! A block of elements put into a list at a place. -/
namespace Tomb.Lib

variable {α : Type}

@[grind =] def insertBlock (xs block : List α) (k : Nat) : List α := xs.take k ++ block ++ xs.drop k

theorem insertBlock_perm (xs block : List α) (k : Nat) :
    (insertBlock xs block k).Perm (xs ++ block) := by
  unfold insertBlock
  rw [List.append_assoc]
  refine (List.perm_append_comm.append_left _).trans ?_
  rw [← List.append_assoc, List.take_append_drop]

theorem insertBlock_nil (xs : List α) (k : Nat) : insertBlock xs [] k = xs := by
  rw [insertBlock, List.append_nil, List.take_append_drop]

theorem map_insertBlock {β : Type} (f : α → β) (xs block : List α) (k : Nat) :
    (insertBlock xs block k).map f = insertBlock (xs.map f) (block.map f) k := by
  simp only [insertBlock, List.map_append, List.map_take, List.map_drop]

theorem filter_take (p : α → Bool) (xs : List α) (k : Nat) :
    (xs.take k).filter p = (xs.filter p).take ((xs.take k).countP p) := by
  conv => rhs; rw [← List.take_append_drop k xs, List.filter_append]
  rw [List.take_append_drop, List.countP_eq_length_filter, List.take_left]

theorem filter_drop (p : α → Bool) (xs : List α) (k : Nat) :
    (xs.drop k).filter p = (xs.filter p).drop ((xs.take k).countP p) := by
  conv => rhs; rw [← List.take_append_drop k xs, List.filter_append]
  rw [List.take_append_drop, List.countP_eq_length_filter, List.drop_left]

variable {block : List α}

theorem filter_insertBlock (p : α → Bool) (xs : List α) (k : Nat) (kept : ∀ x ∈ block, p x = true) :
    (insertBlock xs block k).filter p = insertBlock (xs.filter p) block ((xs.take k).countP p) := by
  rw [insertBlock, insertBlock, List.filter_append, List.filter_append, filter_take, filter_drop,
    List.filter_eq_self.mpr kept]

theorem filter_insertBlock_out (p : α → Bool) (xs : List α) (k : Nat)
    (out : ∀ x ∈ block, ¬p x = true) : (insertBlock xs block k).filter p = xs.filter p := by
  rw [insertBlock, List.filter_append, List.filter_append, List.filter_eq_nil_iff.mpr out,
    List.append_nil, ← List.filter_append, List.take_append_drop]

theorem insertBlock_ne {xs : List α} {j k : Nat} (some : block ≠ [])
    (apart : ∀ x ∈ block, x ∉ xs) (lt : j < k) (within : k ≤ xs.length) :
    insertBlock xs block j ≠ insertBlock xs block k := by
  intro same
  obtain ⟨first, rest, rfl⟩ := List.exists_cons_of_ne_nil some
  have there : j < xs.length := Nat.lt_of_lt_of_le lt within
  have left : (insertBlock xs (first :: rest) j)[j]? = Option.some first := by
    rw [insertBlock, List.append_assoc, List.getElem?_append_right (List.length_take_le j xs),
      List.length_take_of_le (Nat.le_of_lt there), Nat.sub_self]
    rfl
  have right : (insertBlock xs (first :: rest) k)[j]? = xs[j]? := by
    rw [insertBlock, List.append_assoc,
      List.getElem?_append_left (by rw [List.length_take_of_le within]; exact lt),
      List.getElem?_take_of_lt lt]
  rw [same, right] at left
  exact apart first List.mem_cons_self (List.mem_of_getElem? left)

theorem insertBlock_inj {xs : List α} {j k : Nat} (some : block ≠ [])
    (apart : ∀ x ∈ block, x ∉ xs) (withinJ : j ≤ xs.length) (withinK : k ≤ xs.length) :
    insertBlock xs block j = insertBlock xs block k ↔ j = k := by
  constructor
  · intro same
    obtain lt | eq | gt := Nat.lt_trichotomy j k
    · exact absurd same (insertBlock_ne some apart lt withinK)
    · exact eq
    · exact absurd same.symm (insertBlock_ne some apart gt withinJ)
  · intro eq
    rw [eq]

/-- A relation holds along a list if it holds along the two parts and between them. -/
theorem pairwise_parts (p : α → Bool) {r : α → α → Prop} {xs : List α} :
    xs.Pairwise r ↔ (xs.filter p).Pairwise r ∧ (xs.filter (!p ·)).Pairwise r ∧
      xs.Pairwise fun a b => p a ≠ p b → r a b := by
  simp only [List.pairwise_filter, ← List.pairwise_and_iff]
  refine List.Pairwise.iff fun a b => ?_
  cases p a <;> cases p b <;> simp

end Tomb.Lib
