import Mathlib.Data.List.Dedup
import Mathlib.Data.List.Induction
import Mathlib.Data.List.Nodup

/-! Each of a list of pickers picks in its turn from what those before it have left. -/
namespace Tomb.Lib

variable {α β : Type} (pick : List β → α → Option β)

def taken : List β → List α → List β
  | gone, [] => gone
  | gone, x :: rest => taken ((pick gone x).toList ++ gone) rest

theorem taken_append (gone : List β) (xs ys : List α) :
    taken pick gone (xs ++ ys) = taken pick (taken pick gone xs) ys := by
  induction xs generalizing gone with
  | nil => rfl
  | cons x xs ih => exact ih _

theorem taken_concat (gone : List β) (xs : List α) (x : α) :
    taken pick gone (xs ++ [x]) =
      (pick (taken pick gone xs) x).toList ++ taken pick gone xs := by
  rw [taken_append]
  rfl

variable {xs : List α}

theorem mem_taken_append {gone : List β} {b : β} (there : b ∈ taken pick gone xs)
    (ys : List α) : b ∈ taken pick gone (xs ++ ys) := by
  induction ys using List.reverseRecOn with
  | nil => rwa [List.append_nil]
  | append_singleton ys y ih =>
    rw [← List.append_assoc, taken_concat]
    exact List.mem_append_right _ ih

variable [DecidableEq α]

@[grind =] def pickOf (order : List α) (x : α) : Option β :=
  pick (taken pick [] (order.takeWhile (· ≠ x))) x

variable {x : α}

theorem takeWhile_ne_append (member : x ∈ xs) (ys : List α) :
    (xs ++ ys).takeWhile (· ≠ x) = xs.takeWhile (· ≠ x) := by
  induction xs with
  | nil => exact absurd member List.not_mem_nil
  | cons first xs ih =>
    rw [List.cons_append, List.takeWhile_cons, List.takeWhile_cons]
    split
    · rename_i other
      rw [ih ((List.mem_cons.mp member).resolve_left fun same => of_decide_eq_true other same.symm)]
    · rfl

theorem takeWhile_ne_of_not_mem (absent : x ∉ xs) (ys : List α) :
    (xs ++ x :: ys).takeWhile (· ≠ x) = xs := by
  induction xs with
  | nil => simp
  | cons first xs ih =>
    rw [List.mem_cons, not_or] at absent
    have other : decide (first ≠ x) = true := decide_eq_true fun same => absent.1 same.symm
    rw [List.cons_append, List.takeWhile_cons, other, if_pos rfl, ih absent.2]

theorem eq_takeWhile_append (member : x ∈ xs) : ∃ rest, xs = xs.takeWhile (· ≠ x) ++ x :: rest := by
  induction xs with
  | nil => exact absurd member List.not_mem_nil
  | cons first xs ih =>
    by_cases same : first = x
    · exact ⟨xs, by simp [same]⟩
    · obtain ⟨rest, split⟩ := ih ((List.mem_cons.mp member).resolve_left fun eq => same eq.symm)
      refine ⟨rest, ?_⟩
      have other : decide (first ≠ x) = true := decide_eq_true same
      rw [List.takeWhile_cons, other, if_pos rfl, List.cons_append, ← split]

theorem mem_takeWhile_or {y : α} (first : x ∈ xs) (second : y ∈ xs)
    (differ : x ≠ y) : x ∈ xs.takeWhile (· ≠ y) ∨ y ∈ xs.takeWhile (· ≠ x) := by
  induction xs with
  | nil => exact absurd first List.not_mem_nil
  | cons head xs ih =>
    simp only [List.takeWhile_cons]
    rcases List.mem_cons.mp first with rfl | later
    · exact .inl (by simp [differ])
    · rcases List.mem_cons.mp second with rfl | later'
      · exact .inr (by simp [differ.symm])
      · by_cases here : head = x
        · exact .inl (by simp [here, differ])
        · by_cases here' : head = y
          · exact .inr (by simp [here', differ.symm])
          · have earlier := ih later later'
            simp only [ne_eq, here, here', not_false_eq_true, decide_true, if_true, List.mem_cons]
            exact earlier.imp .inr .inr

theorem pickOf_append (member : x ∈ xs) (ys : List α) :
    pickOf pick (xs ++ ys) x = pickOf pick xs x := by
  rw [pickOf, takeWhile_ne_append member, pickOf]

theorem pickOf_split {before : List α} (absent : x ∉ before) (after : List α) :
    pickOf pick (before ++ x :: after) x = pick (taken pick [] before) x := by
  rw [pickOf, takeWhile_ne_of_not_mem absent]

theorem mem_taken (distinct : xs.Nodup) {b : β} :
    b ∈ taken pick [] xs ↔ ∃ x ∈ xs, pickOf pick xs x = some b := by
  induction xs using List.reverseRecOn with
  | nil => simp [taken]
  | append_singleton xs x ih =>
    obtain ⟨others, -, apart⟩ := List.nodup_append.mp distinct
    have absent : x ∉ xs := fun member => apart x member x (List.mem_singleton_self x) rfl
    rw [taken_concat, List.mem_append, Option.mem_toList, ih others]
    constructor
    · rintro (last | ⟨y, member, earlier⟩)
      · exact ⟨x, by simp, (pickOf_split pick absent []).trans last⟩
      · exact ⟨y, by simp [member], (pickOf_append pick member [x]).trans earlier⟩
    · rintro ⟨y, member, picked⟩
      rcases List.mem_append.mp member with member | last
      · exact .inr ⟨y, member, (pickOf_append pick member [x]).symm.trans picked⟩
      · obtain rfl := List.mem_singleton.mp last
        exact .inl ((pickOf_split pick absent []).symm.trans picked)

variable {pick}

theorem pickOf_injective (fresh : ∀ gone x b, pick gone x = some b → b ∉ gone) {order : List α}
    {y : α} {b : β} (member : x ∈ order) (other : y ∈ order) (first : pickOf pick order x = some b)
    (second : pickOf pick order y = some b) : x = y := by
  have later : ∀ {x y}, x ∈ order.takeWhile (· ≠ y) → pickOf pick order x = some b →
      pickOf pick order y = some b → False := by
    intro x y before first second
    refine fresh _ _ _ second ?_
    obtain ⟨rest, split⟩ := eq_takeWhile_append before
    obtain ⟨after, whole⟩ := List.takeWhile_prefix (l := order) (· ≠ y)
    have same : order.takeWhile (· ≠ x) = (order.takeWhile (· ≠ y)).takeWhile (· ≠ x) := by
      conv => lhs; rw [← whole]
      exact takeWhile_ne_append before after
    rw [split, ← same, ← List.singleton_append, ← List.append_assoc]
    refine mem_taken_append pick ?_ rest
    rw [taken_concat]
    exact List.mem_append_left _ (Option.mem_toList.mpr first)
  by_contra differ
  rcases mem_takeWhile_or member other differ with before | before
  · exact later before first second
  · exact later before second first

structure TurnsOf (xs order : List α) : Prop where
  distinct : order.Nodup
  same : ∀ x, x ∈ order ↔ x ∈ xs

theorem TurnsOf.of_split {ys : List α} (member : x ∈ xs) (distinct : ys.Nodup)
    (others : ∀ y ∈ ys, y ∈ xs ∧ y ≠ x) : ∃ rest, TurnsOf xs (ys ++ x :: rest) := by
  refine ⟨xs.dedup.filter fun z => z ≠ x ∧ z ∉ ys, ?_, fun z => ?_⟩
  · refine List.nodup_append.mpr ⟨distinct, List.nodup_cons.mpr ⟨by simp, ?_⟩, ?_⟩
    · exact (List.nodup_dedup xs).filter _
    · rintro y early z later rfl
      rcases List.mem_cons.mp later with same | later
      · exact (others y early).2 same
      · have apart := of_decide_eq_true (List.mem_filter.mp later).2
        exact apart.2 early
  · simp only [List.mem_append, List.mem_cons, List.mem_filter, List.mem_dedup, decide_eq_true_eq]
    constructor
    · rintro (early | rfl | late)
      · exact (others z early).1
      · exact member
      · exact late.1
    · intro there
      by_cases early : z ∈ ys
      · exact .inl early
      · by_cases now : z = x
        · exact .inr (.inl now)
        · exact .inr (.inr ⟨there, now, early⟩)

/-- Nobody is disturbed if what others would pick first is gone. -/
def Undisturbed (pick : List β → α → Option β) (xs : List α) : Prop :=
  ∀ x ∈ xs, ∀ gone, (∀ b ∈ gone, ∃ y ∈ xs, y ≠ x ∧ pick [] y = some b) →
    pick gone x = pick [] x

theorem Undisturbed.pickOf_eq (undisturbed : Undisturbed pick xs) {order : List α}
    (turns : TurnsOf xs order) (member : x ∈ xs) : pickOf pick order x = pick [] x := by
  have all : ∀ before after : List α, order = before ++ after →
      ∀ y ∈ before, pickOf pick order y = pick [] y := by
    intro before
    induction before using List.reverseRecOn with
    | nil => exact fun _ _ y absent => absurd absent List.not_mem_nil
    | append_singleton before y ih =>
      intro after split z there
      rw [List.append_assoc, List.singleton_append] at split
      have earlier := ih (y :: after) split
      rcases List.mem_append.mp there with there | last
      · exact earlier z there
      · obtain rfl := List.mem_singleton.mp last
        have parts := turns.distinct
        rw [split] at parts
        obtain ⟨others, -, apart⟩ := List.nodup_append.mp parts
        have absent : z ∉ before := fun early => apart z early z List.mem_cons_self rfl
        have place : z ∈ xs := (turns.same z).mp (by simp [split])
        have now : pickOf pick order z = pick (taken pick [] before) z := by
          rw [split]
          exact pickOf_split pick absent after
        rw [now]
        refine undisturbed z place _ fun b gone => ?_
        obtain ⟨y, early, picked⟩ := (mem_taken pick others).mp gone
        refine ⟨y, (turns.same y).mp (by simp [split, early]), fun same => absent (same ▸ early), ?_⟩
        rw [← earlier y early, split]
        exact (pickOf_append pick early _).trans picked
  exact all order [] (List.append_nil _).symm x ((turns.same x).mpr member)

/-- The order makes no difference exactly when nobody is disturbed, where what is picked depends only
on which things are gone. -/
theorem pickOf_agrees_iff (ext : ∀ gone gone' x, (∀ b, b ∈ gone ↔ b ∈ gone') →
    pick gone x = pick gone' x) (xs : List α) :
    (∀ order order', TurnsOf xs order → TurnsOf xs order' → ∀ x ∈ xs,
      pickOf pick order x = pickOf pick order' x) ↔ Undisturbed pick xs := by
  constructor
  · intro agrees
    have first : ∀ order, TurnsOf xs order → ∀ x ∈ xs, pickOf pick order x = pick [] x := by
      intro order turns x member
      obtain ⟨rest, turns'⟩ := TurnsOf.of_split member List.nodup_nil nofun
      rw [agrees order _ turns turns' x member]
      exact pickOf_split pick List.not_mem_nil rest
    intro x member gone others
    classical
    let ys := xs.dedup.filter fun y => y ≠ x ∧ ∃ b ∈ gone, pick [] y = some b
    have mem_ys : ∀ y, y ∈ ys ↔ y ∈ xs ∧ y ≠ x ∧ ∃ b ∈ gone, pick [] y = some b := by
      intro y
      simp only [ys, List.mem_filter, List.mem_dedup, decide_eq_true_eq]
    have distinct : ys.Nodup := (List.nodup_dedup xs).filter _
    obtain ⟨rest, turns⟩ := TurnsOf.of_split member distinct fun y early =>
      ⟨((mem_ys y).mp early).1, ((mem_ys y).mp early).2.1⟩
    have absent : x ∉ ys := fun early => ((mem_ys x).mp early).2.1 rfl
    rw [← first _ turns x member, pickOf_split pick absent]
    refine ext _ _ x fun b => ?_
    rw [mem_taken pick distinct]
    have early : ∀ y ∈ ys, pickOf pick ys y = pick [] y := by
      intro y there
      rw [← first _ turns y ((mem_ys y).mp there).1]
      exact (pickOf_append pick there _).symm
    constructor
    · intro there
      obtain ⟨y, known, other, picked⟩ := others b there
      have there := (mem_ys y).mpr ⟨known, other, b, there, picked⟩
      exact ⟨y, there, (early y there).trans picked⟩
    · rintro ⟨y, there, picked⟩
      obtain ⟨-, -, c, known, chosen⟩ := (mem_ys y).mp there
      have same := (early y there).symm.trans picked
      rw [chosen, Option.some.injEq] at same
      exact same ▸ known
  · intro undisturbed order order' turns turns' x member
    rw [undisturbed.pickOf_eq turns member, undisturbed.pickOf_eq turns' member]

end Tomb.Lib
