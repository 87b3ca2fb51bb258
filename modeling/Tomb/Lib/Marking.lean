import Mathlib.Data.Finset.Basic
import Mathlib.Data.Finset.Dedup

/-! The mark phase of a collector that visits its roots once, in order, and marks what a root lists
only when the root's own name was not marked before. -/
namespace Tomb.Lib

variable {ρ κ : Type} [DecidableEq κ] (name : ρ → κ) (listed : ρ → List κ)

def markRoot (live : Finset κ) (root : ρ) : Finset κ :=
  if name root ∈ live then live else insert (name root) live ∪ (listed root).toFinset

@[grind =]
def mark (roots : List ρ) (live : Finset κ) : Finset κ := roots.foldl (markRoot name listed) live

/-- Neither the start nor any of the earlier roots, the latest first, has marked the name. -/
def Unmarked (start : Finset κ) : List ρ → κ → Prop
  | [], k => k ∉ start
  | root :: earlier, k =>
    Unmarked start earlier k ∧ k ≠ name root ∧
      (Unmarked start earlier (name root) → k ∉ listed root)

instance decidableUnmarked (start : Finset κ) :
    (earlier : List ρ) → (k : κ) → Decidable (Unmarked name listed start earlier k)
  | [], k => inferInstanceAs (Decidable (k ∉ start))
  | root :: earlier, k =>
    have := decidableUnmarked start earlier k
    have := decidableUnmarked start earlier (name root)
    inferInstanceAs (Decidable (Unmarked name listed start earlier k ∧ k ≠ name root ∧
      (Unmarked name listed start earlier (name root) → k ∉ listed root)))

variable {name listed}

theorem mark_append (roots : List ρ) (root : ρ) (live : Finset κ) :
    mark name listed (roots ++ [root]) live =
      markRoot name listed (mark name listed roots live) root := by
  simp [mark]

theorem mem_markRoot (live : Finset κ) (root : ρ) (k : κ) :
    k ∈ markRoot name listed live root ↔
      k ∈ live ∨ k = name root ∨ (name root ∉ live ∧ k ∈ listed root) := by
  unfold markRoot
  split
  · rename_i marked
    constructor
    · exact .inl
    · rintro (known | rfl | ⟨fresh, -⟩)
      · exact known
      · exact marked
      · exact absurd marked fresh
  · rename_i fresh
    simp only [Finset.mem_union, Finset.mem_insert, List.mem_toFinset]
    tauto

theorem unmarked_iff (start : Finset κ) (earlier : List ρ) (k : κ) :
    Unmarked name listed start earlier k ↔ k ∉ mark name listed earlier.reverse start := by
  induction earlier generalizing k with
  | nil => exact Iff.rfl
  | cons root earlier ih =>
    rw [List.reverse_cons, mark_append, mem_markRoot, Unmarked, ih, ih]
    tauto

theorem mem_mark (roots : List ρ) (start : Finset κ) (k : κ) :
    k ∈ mark name listed roots start ↔
      k ∈ start ∨ (∃ root ∈ roots, name root = k) ∨
        ∃ (before : List ρ) (root : ρ) (after : List ρ), roots = before ++ root :: after ∧
          Unmarked name listed start before.reverse (name root) ∧ k ∈ listed root := by
  induction roots using List.reverseRecOn with
  | nil => simp [mark]
  | append_singleton roots last ih =>
    rw [mark_append, mem_markRoot, ih]
    constructor
    · rintro ((known | ⟨root, member, rfl⟩ | ⟨before, root, after, rfl, fresh, child⟩) | rfl |
        ⟨fresh, child⟩)
      · exact .inl known
      · exact .inr (.inl ⟨root, List.mem_append_left _ member, rfl⟩)
      · exact .inr (.inr ⟨before, root, after ++ [last], by simp, fresh, child⟩)
      · exact .inr (.inl ⟨last, by simp, rfl⟩)
      · exact .inr (.inr ⟨roots, last, [], rfl,
          (unmarked_iff _ _ _).mpr (by rwa [List.reverse_reverse]), child⟩)
    · rintro (known | ⟨root, member, rfl⟩ | ⟨before, root, after, split, fresh, child⟩)
      · exact .inl (.inl known)
      · rcases List.mem_append.mp member with earlier | same
        · exact .inl (.inr (.inl ⟨root, earlier, rfl⟩))
        · exact .inr (.inl (congrArg name (List.mem_singleton.mp same)))
      · rcases List.eq_nil_or_concat after with rfl | ⟨rest, final, rfl⟩
        · obtain ⟨rfl, same⟩ := List.append_inj' split rfl
          cases same
          exact .inr (.inr ⟨by simpa using (unmarked_iff _ _ _).mp fresh, child⟩)
        · rw [List.concat_eq_append, ← List.cons_append, ← List.append_assoc] at split
          obtain ⟨rfl, -⟩ := List.append_inj' split rfl
          exact .inl (.inr (.inr ⟨before, root, rest, rfl, fresh, child⟩))

end Tomb.Lib
