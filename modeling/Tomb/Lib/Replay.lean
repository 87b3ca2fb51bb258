import Mathlib.Data.List.InsertIdx

/-! Lists of rows that are told apart by a key, the changes made to them, and what replaying a log of
changes does to a list that already has them. -/
namespace Tomb.Lib

inductive Change (α κ : Type) where
  | append (row : α)
  | remove (k : κ)
  | move (k : κ) (index : Nat)
  | clear

namespace Change

variable {α κ : Type} [DecidableEq κ] (key : α → κ)

def lift (k : κ) : List α → Option (α × List α)
  | [] => none
  | row :: rest =>
    if key row = k then some (row, rest)
    else (lift k rest).map fun lifted => (lifted.1, row :: lifted.2)

@[grind =] def apply (rows : List α) : Change α κ → List α
  | append row => if key row ∈ rows.map key then rows else rows ++ [row]
  | remove k => rows.filter fun row => key row ≠ k
  | move k index =>
    match lift key k rows with
    | none => rows
    | some (row, rest) => rest.insertIdx (min index rest.length) row
  | clear => []

def replay (log : List (Change α κ)) (rows : List α) : List α := log.foldl (apply key) rows

@[simp] theorem replay_nil (rows : List α) : replay key [] rows = rows := rfl

@[simp] theorem replay_cons (change : Change α κ) (log : List (Change α κ)) (rows : List α) :
    replay key (change :: log) rows = replay key log (apply key rows change) := rfl

@[simp] theorem replay_append (log more : List (Change α κ)) (rows : List α) :
    replay key (log ++ more) rows = replay key more (replay key log rows) := List.foldl_append

def isMove : Change α κ → Bool
  | move _ _ => true
  | _ => false

def isClear : Change α κ → Bool
  | clear => true
  | _ => false

def Names (k : κ) : Change α κ → Prop
  | append row => key row = k
  | remove k' => k' = k
  | _ => False

/-- Where a change appends a row, its key has never been seen. -/
def New (log : List (Change α κ)) (rows : List α) : Change α κ → Prop
  | append row => key row ∉ rows.map key ∧ ∀ earlier ∈ log, ¬earlier.Names key (key row)
  | _ => True

/-- The rows are what the changes of the log, each of them new, have led to. -/
inductive Settled : List (Change α κ) → List α → Prop where
  | start (rows : List α) : Settled [] rows
  | later {log : List (Change α κ)} {rows : List α} (settled : Settled log rows)
      (change : Change α κ) (new : change.New key log rows) :
      Settled (log ++ [change]) (change.apply key rows)

variable {key}

variable {log : List (Change α κ)} {rows : List α}

theorem apply_new {row : α} (new : (append row : Change α κ).New key log rows) :
    apply key rows (append row) = rows ++ [row] := if_neg new.1

omit [DecidableEq κ] in
theorem New.shorter {log : List (Change α κ)} {rows : List α} {first change : Change α κ}
    (new : change.New key (first :: log) rows) : change.New key log rows := by
  cases change with
  | append row => exact ⟨new.1, fun earlier member => new.2 earlier (.tail _ member)⟩
  | remove k => trivial
  | move k index => trivial
  | clear => trivial

theorem lift_perm {k : κ} {rest : List α} {row : α}
    (lifted : lift key k rows = some (row, rest)) : rows.Perm (row :: rest) := by
  induction rows generalizing rest with
  | nil => cases lifted
  | cons first others ih =>
    unfold lift at lifted
    split at lifted
    · cases lifted
      exact .refl _
    · obtain ⟨⟨found, left⟩, inner, same⟩ := Option.map_eq_some_iff.mp lifted
      cases same
      exact ((ih inner).cons first).trans (.swap _ _ _)

theorem apply_move_perm (rows : List α) (k : κ) (index : Nat) :
    (apply key rows (move k index)).Perm rows := by
  simp only [apply]
  cases lifted : lift key k rows with
  | none => exact .refl _
  | some found =>
    obtain ⟨row, rest⟩ := found
    exact (List.perm_insertIdx row rest (Nat.min_le_right _ _)).trans (lift_perm lifted).symm

theorem apply_nodup (distinct : (rows.map key).Nodup) (change : Change α κ) :
    ((apply key rows change).map key).Nodup := by
  cases change with
  | append row =>
    simp only [apply]
    split
    · exact distinct
    · rename_i absent
      rw [List.map_append, List.nodup_append]
      refine ⟨distinct, by simp, fun k there k' last same => absent ?_⟩
      rw [List.map_singleton, List.mem_singleton] at last
      rw [← last, ← same]
      exact there
  | remove k => exact distinct.sublist (List.filter_sublist.map key)
  | move k index => exact ((apply_move_perm rows k index).map key).nodup_iff.mpr distinct
  | clear => exact List.nodup_nil

theorem mem_apply {change : Change α κ} {k : κ}
    (there : k ∈ (apply key rows change).map key) : k ∈ rows.map key ∨ change.Names key k := by
  cases change with
  | append row =>
    simp only [apply] at there
    split at there
    · exact .inl there
    · rw [List.map_append, List.mem_append] at there
      rcases there with before | last
      · exact .inl before
      · exact .inr (List.mem_singleton.mp last).symm
  | remove removed => exact .inl ((List.filter_sublist.map key).subset there)
  | move moved index => exact .inl (((apply_move_perm rows moved index).map key).mem_iff.mp there)
  | clear => cases there

theorem Settled.tail {first : Change α κ}
    (settled : Settled key (first :: log) rows) : Settled key log rows := by
  generalize same : first :: log = all at settled
  induction settled generalizing log with
  | start rows => cases same
  | @later before rows settled change new ih =>
    cases before with
    | nil =>
      cases same
      exact .start _
    | cons head others =>
      cases same
      exact .later (ih rfl) change new.shorter

theorem Settled.suffix {forgotten : List (Change α κ)}
    (settled : Settled key (forgotten ++ log) rows) : Settled key log rows := by
  induction forgotten with
  | nil => exact settled
  | cons first others ih => exact ih settled.tail

variable (key) in
theorem apply_without {change : Change α κ} (still : change.isMove = false) (k : κ)
    (rows : List α) : (apply key rows change).filter (fun row => key row ≠ k) =
      (apply key (rows.filter fun row => key row ≠ k) change).filter fun row => key row ≠ k := by
  cases change with
  | append row =>
    by_cases same : key row = k
    · simp only [apply]
      split <;> split <;> simp [same]
    · have keeps : key row ∈ (rows.filter fun row => key row ≠ k).map key ↔
          key row ∈ rows.map key := by
        simp only [List.mem_map, List.mem_filter]
        constructor
        · intro ⟨a, member, equal⟩
          exact ⟨a, member.1, equal⟩
        · intro ⟨a, member, equal⟩
          exact ⟨a, ⟨member, decide_eq_true (equal ▸ same)⟩, equal⟩
      by_cases there : key row ∈ rows.map key
      · simp only [apply, if_pos there, if_pos (keeps.mpr there), List.filter_filter, Bool.and_self]
      · simp only [apply, if_neg there, if_neg (there ∘ keeps.mp), List.filter_append,
          List.filter_filter, Bool.and_self]
  | remove removed =>
    simp only [apply, List.filter_filter]
    exact List.filter_congr fun row _ => by
      rw [Bool.and_comm (decide (key row ≠ removed)), ← Bool.and_assoc, Bool.and_self]
  | move moved index => cases still
  | clear => rfl

variable (key) in
theorem replay_without (still : ∀ change ∈ log, change.isMove = false) (k : κ) (rows : List α) :
    (replay key log rows).filter (fun row => key row ≠ k) =
      (replay key log (rows.filter fun row => key row ≠ k)).filter fun row => key row ≠ k := by
  induction log generalizing rows with
  | nil => simp only [replay_nil, List.filter_filter, Bool.and_self]
  | cons change log ih =>
    have stillAfter := fun later member => still later (.tail change member)
    have step := apply_without key (still change (.head _)) k rows
    rw [replay_cons, ih stillAfter, step, ← ih stillAfter, ← replay_cons]

theorem Settled.replay_more (settled : Settled key log rows)
    (still : ∀ change ∈ log, change.isMove = false) {others : List α}
    (unnamed : ∀ row ∈ others, ∀ change ∈ log, ¬change.Names key (key row)) :
    replay key log (rows ++ others) = if log.any isClear then rows else rows ++ others := by
  induction settled generalizing others with
  | start rows => rfl
  | @later log rows settled change new ih =>
    have stillBefore : ∀ earlier ∈ log, earlier.isMove = false :=
      fun earlier member => still earlier (List.mem_append_left _ member)
    have unnamedBefore : ∀ row ∈ others, ∀ earlier ∈ log, ¬earlier.Names key (key row) :=
      fun row member earlier there => unnamed row member earlier (List.mem_append_left _ there)
    have unnamedNow : ∀ row ∈ others, ¬change.Names key (key row) :=
      fun row member => unnamed row member change (List.mem_append_right _ (.head _))
    rw [replay_append, List.any_append]
    cases change with
    | append row =>
      have replayed := @ih stillBefore (row :: others)
        (fun other member => by
          rcases List.mem_cons.mp member with same | there
          · rw [same]
            exact new.2
          · exact unnamedBefore other there)
      rw [apply_new new, List.append_assoc, List.singleton_append, replayed]
      simp only [List.any_cons, List.any_nil, isClear, Bool.or_false, replay_cons, replay_nil]
      cases cleared : log.any isClear with
      | true => exact apply_new new
      | false => simp [apply]
    | remove k =>
      have apart : others.filter (fun row => key row ≠ k) = others :=
        List.filter_eq_self.mpr fun row member => decide_eq_true fun same =>
          unnamedNow row member same.symm
      have replayed := ih stillBefore unnamedBefore
      have without := replay_without key stillBefore k (rows ++ others)
      rw [List.filter_append, apart] at without
      simp only [List.any_cons, List.any_nil, isClear, Bool.or_false, replay_cons, replay_nil, apply]
      rw [← without, replayed]
      split
      · rfl
      · rw [List.filter_append, apart]
    | move k index => exact absurd (still _ (List.mem_append_right _ (.head _))) Bool.noConfusion
    | clear => simp [apply, isClear]

theorem Settled.replay_self
    (settled : Settled key log rows) (still : ∀ change ∈ log, change.isMove = false) :
    replay key log rows = rows := by
  have replayed := settled.replay_more still fun _ (none : _ ∈ ([] : List α)) => (nomatch none)
  rw [List.append_nil, ite_self] at replayed
  exact replayed

end Change

end Tomb.Lib
