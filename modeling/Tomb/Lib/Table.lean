import Mathlib.Data.List.Basic
import Mathlib.Data.List.Nodup

/-! Tables with a unique key, as a database keeps them. A table carries the proof that no two
of its rows share a key, so every operation below yields such a table again. -/
namespace Tomb.Lib

structure Table {ρ κ : Type} (key : ρ → κ) where
  rows : List ρ
  unique : (rows.map key).Nodup

namespace Table

variable {ρ κ : Type} {key : ρ → κ}

instance : Membership ρ (Table key) := ⟨fun table row => row ∈ table.rows⟩

theorem mem_def (table : Table key) (row : ρ) : row ∈ table ↔ row ∈ table.rows := Iff.rfl

instance : EmptyCollection (Table key) := ⟨⟨[], List.nodup_nil⟩⟩

@[simp] theorem not_mem_empty (row : ρ) : row ∉ (∅ : Table key) := List.not_mem_nil

theorem eq_of_key_eq (table : Table key) {a b : ρ} (ha : a ∈ table) (hb : b ∈ table)
    (same : key a = key b) : a = b :=
  List.inj_on_of_nodup_map table.unique ha hb same

def Same (a b : Table key) : Prop := ∀ row, row ∈ a ↔ row ∈ b

variable {table : Table key}

theorem Same.rfl : Same table table := fun _ => Iff.rfl

theorem Same.symm {a b : Table key} (same : Same a b) : Same b a := fun row => (same row).symm

theorem Same.trans {a b c : Table key} (same : Same a b) (same' : Same b c) : Same a c :=
  fun row => (same row).trans (same' row)

theorem same_iff (a b : Table key) :
    ((∀ row ∈ a.rows, row ∈ b.rows) ∧ ∀ row ∈ b.rows, row ∈ a.rows) ↔ Same a b :=
  ⟨fun both row => ⟨both.1 row, both.2 row⟩,
    fun same => ⟨fun row => (same row).mp, fun row => (same row).mpr⟩⟩

instance [DecidableEq ρ] (a b : Table key) : Decidable (Same a b) :=
  decidable_of_iff _ (same_iff a b)

theorem same_empty (none : table.rows = []) : Same ∅ table := by
  intro row
  rw [mem_def table, none]
  exact Iff.rfl

@[grind =] def select (table : Table key) (p : ρ → Bool) : List ρ := table.rows.filter p

@[simp] theorem mem_select (table : Table key) (p : ρ → Bool) (row : ρ) :
    row ∈ table.select p ↔ row ∈ table ∧ p row = true :=
  List.mem_filter

@[grind =] def deleteWhere (table : Table key) (p : ρ → Bool) : Table key where
  rows := table.rows.filter fun row => !p row
  unique := table.unique.sublist (List.filter_sublist.map key)

@[simp] theorem mem_deleteWhere (table : Table key) (p : ρ → Bool) (row : ρ) :
    row ∈ table.deleteWhere p ↔ row ∈ table ∧ p row = false := by
  simp only [mem_def, deleteWhere, List.mem_filter, Bool.not_eq_eq_eq_not, Bool.not_true]

theorem deleteWhere_deleteWhere (table : Table key) (p q : ρ → Bool) :
    (table.deleteWhere p).deleteWhere q = table.deleteWhere fun row => p row || q row := by
  simp only [deleteWhere, List.filter_filter, Bool.not_or, Bool.and_comm]

@[grind =]
def update (table : Table key) (p : ρ → Bool) (f : ρ → ρ) (keeps : ∀ row, key (f row) = key row) :
    Table key where
  rows := table.rows.map fun row => if p row then f row else row
  unique := by
    have keys : (table.rows.map fun row => if p row then f row else row).map key =
        table.rows.map key := by
      rw [List.map_map]
      refine List.map_congr_left fun row _ => ?_
      simp only [Function.comp_apply]
      split
      · exact keeps row
      · rfl
    rw [keys]
    exact table.unique

@[simp] theorem mem_update (table : Table key) (p : ρ → Bool) (f : ρ → ρ)
    (keeps : ∀ row, key (f row) = key row) (row : ρ) :
    row ∈ table.update p f keeps ↔ ∃ old ∈ table, (if p old then f old else old) = row :=
  List.mem_map

variable [DecidableEq κ]

def insert (table : Table key) (row : ρ) : Option (Table key) :=
  if fresh : key row ∉ table.rows.map key then
    some ⟨table.rows ++ [row], by
      rw [List.map_append, List.map_singleton]
      exact List.Nodup.append table.unique (List.nodup_singleton _)
        (List.disjoint_singleton.mpr fresh)⟩
  else none

def upsert (table : Table key) (row : ρ) : Table key :=
  if fresh : key row ∉ table.rows.map key then
    ⟨table.rows ++ [row], by
      rw [List.map_append, List.map_singleton]
      exact List.Nodup.append table.unique (List.nodup_singleton _)
        (List.disjoint_singleton.mpr fresh)⟩
  else
    ⟨table.rows.map fun old => if key old = key row then row else old, by
      have keys : (table.rows.map fun old => if key old = key row then row else old).map key =
          table.rows.map key := by
        rw [List.map_map]
        refine List.map_congr_left fun old _ => ?_
        simp only [Function.comp_apply]
        split
        · rename_i same; exact same.symm
        · rfl
      rw [keys]
      exact table.unique⟩

theorem insert_eq_some (table next : Table key) (row : ρ) (done : table.insert row = some next)
    (other : ρ) : other ∈ next ↔ other ∈ table ∨ other = row := by
  unfold insert at done
  split at done
  · cases Option.some.inj done
    simp [mem_def]
  · cases done

theorem insert_eq_none (table : Table key) (row : ρ) :
    table.insert row = none ↔ ∃ old ∈ table, key old = key row := by
  unfold insert
  split
  · rename_i fresh
    simp only [reduceCtorEq, false_iff]
    rintro ⟨old, present, same⟩
    exact fresh (List.mem_map.mpr ⟨old, present, same⟩)
  · rename_i taken
    simpa [mem_def] using taken

theorem mem_upsert (table : Table key) (row other : ρ) :
    other ∈ table.upsert row ↔ other = row ∨ (other ∈ table ∧ key other ≠ key row) := by
  unfold upsert
  split
  · rename_i fresh
    have distinct : ∀ old ∈ table, key old ≠ key row := fun old present same =>
      fresh (List.mem_map.mpr ⟨old, present, same⟩)
    simp only [mem_def, List.mem_append, List.mem_singleton]
    exact ⟨fun h => h.elim (fun old => .inr ⟨old, distinct other old⟩) .inl,
      fun h => h.elim .inr fun old => .inl old.1⟩
  · rename_i taken
    obtain ⟨old, present, same⟩ := List.mem_map.mp (not_not.mp taken)
    simp only [mem_def, List.mem_map]
    constructor
    · rintro ⟨prior, known, rfl⟩
      split
      · exact .inl rfl
      · rename_i differs
        exact .inr ⟨known, differs⟩
    · rintro (rfl | ⟨known, differs⟩)
      · exact ⟨old, present, if_pos same⟩
      · exact ⟨other, known, if_neg differs⟩

def collect (rows : List ρ) : Table key := rows.foldl upsert ∅

theorem mem_foldl_upsert {rows : List ρ} (distinct : (rows.map key).Nodup) (table : Table key)
    (row : ρ) : row ∈ rows.foldl upsert table ↔
      row ∈ rows ∨ row ∈ table ∧ key row ∉ rows.map key := by
  induction rows generalizing table with
  | nil => simp
  | cons first rest ih =>
    obtain ⟨fresh, distinct⟩ := List.nodup_cons.mp distinct
    rw [List.foldl_cons, ih distinct, mem_upsert, List.map_cons, List.mem_cons, List.mem_cons]
    constructor
    · rintro (later | ⟨rfl | ⟨known, differs⟩, absent⟩)
      · exact .inl (.inr later)
      · exact .inl (.inl rfl)
      · exact .inr ⟨known, fun taken => taken.elim differs absent⟩
    · rintro ((rfl | later) | ⟨known, absent⟩)
      · exact .inr ⟨.inl rfl, fresh⟩
      · exact .inl later
      · exact .inr ⟨.inr ⟨known, fun same => absent (.inl same)⟩,
          fun taken => absent (.inr taken)⟩

theorem mem_collect {rows : List ρ} (distinct : (rows.map key).Nodup) (row : ρ) :
    row ∈ (collect rows : Table key) ↔ row ∈ rows := by
  rw [collect, mem_foldl_upsert distinct]
  exact ⟨fun h => h.elim id fun none => absurd none.1 (not_mem_empty row), .inl⟩

def get (table : Table key) (k : κ) : Option ρ := table.rows.find? fun row => key row = k

theorem get_eq_some (table : Table key) (k : κ) (row : ρ) :
    table.get k = some row ↔ row ∈ table ∧ key row = k := by
  constructor
  · intro found
    exact ⟨List.mem_of_find?_eq_some found, by simpa using List.find?_some found⟩
  · rintro ⟨present, rfl⟩
    cases found : table.get (key row) with
    | none => exact absurd (List.find?_eq_none.mp found row present) (by simp)
    | some other =>
      have same : key other = key row := by simpa using List.find?_some found
      exact congrArg some (table.eq_of_key_eq (List.mem_of_find?_eq_some found) present same)

theorem get_eq_none (table : Table key) (k : κ) :
    table.get k = none ↔ ∀ row ∈ table, key row ≠ k := by
  simp [get, List.find?_eq_none, mem_def]

theorem get_upsert (table : Table key) (row : ρ) (k : κ) :
    (table.upsert row).get k = if k = key row then some row else table.get k := by
  split
  · rename_i same
    exact (get_eq_some _ _ _).mpr ⟨(mem_upsert _ _ _).mpr (.inl rfl), same.symm⟩
  · rename_i other
    ext found
    rw [get_eq_some, get_eq_some, mem_upsert]
    constructor
    · rintro ⟨rfl | ⟨known, _⟩, rfl⟩
      · exact absurd rfl other
      · exact ⟨known, rfl⟩
    · rintro ⟨known, rfl⟩
      exact ⟨.inr ⟨known, other⟩, rfl⟩

theorem get_update (table : Table key) (p : ρ → Bool) (f : ρ → ρ)
    (keeps : ∀ row, key (f row) = key row) (k : κ) :
    (table.update p f keeps).get k = (table.get k).map fun row => if p row then f row else row := by
  have same (row : ρ) : key (if p row then f row else row) = key row := by
    split
    · exact keeps row
    · rfl
  ext row
  simp only [get_eq_some, mem_update, Option.map_eq_some_iff]
  constructor
  · rintro ⟨⟨old, present, rfl⟩, rfl⟩
    exact ⟨old, ⟨present, (same old).symm⟩, rfl⟩
  · rintro ⟨old, ⟨present, rfl⟩, rfl⟩
    exact ⟨⟨old, present, rfl⟩, same old⟩

theorem get_insert (table next : Table key) (row : ρ) (done : table.insert row = some next)
    (k : κ) : next.get k = if k = key row then some row else table.get k := by
  split
  · rename_i same
    exact (get_eq_some _ _ _).mpr ⟨(insert_eq_some _ _ _ done _).mpr (.inr rfl), same.symm⟩
  · rename_i other
    ext found
    rw [get_eq_some, get_eq_some, insert_eq_some _ _ _ done]
    constructor
    · rintro ⟨known | rfl, rfl⟩
      · exact ⟨known, rfl⟩
      · exact absurd rfl other
    · rintro ⟨known, rfl⟩
      exact ⟨.inl known, rfl⟩

theorem get_of_insert {next : Table key} {row : ρ} (done : table.insert row = some next) {k : κ}
    {old : ρ} (known : table.get k = some old) : next.get k = some old := by
  obtain ⟨present, named⟩ := (get_eq_some _ _ _).mp known
  exact (get_eq_some _ _ _).mpr ⟨(insert_eq_some _ _ _ done old).mpr (.inl present), named⟩

theorem get_deleteWhere_of_all (table : Table key) (p : ρ → Bool) (k : κ)
    (all : ∀ row, key row = k → p row = true) : (table.deleteWhere p).get k = none := by
  rw [get_eq_none]
  intro row present same
  rw [mem_deleteWhere, all row same] at present
  cases present.2

theorem get_deleteWhere_of_none (table : Table key) (p : ρ → Bool) (k : κ)
    (none : ∀ row, key row = k → p row = false) :
    (table.deleteWhere p).get k = table.get k := by
  ext row
  rw [get_eq_some, get_eq_some, mem_deleteWhere]
  exact ⟨fun h => ⟨h.1.1, h.2⟩, fun h => ⟨⟨h.1, none row h.2⟩, h.2⟩⟩

end Table

end Tomb.Lib

/-! The triggers that run after a row of a table was updated. What a trigger does is an update
again, with triggers of its own; a trigger that is running does not start anew. -/
namespace Tomb.Lib

structure RowChange (ρ κ : Type) where
  sets : List κ
  apply : ρ → ρ

structure Trigger (ρ κ : Type) where
  /-- The trigger is for updates of these columns; of any column when there are none. -/
  columns : List κ
  /-- Reads the row before the update and behind it. -/
  when : ρ → ρ → Bool
  /-- Reads the row behind the update. -/
  body : ρ → RowChange ρ κ

variable {ρ κ τ : Type} [DecidableEq κ]

def Trigger.fires (trigger : Trigger ρ κ) (sets : List κ) (old new : ρ) : Bool :=
  (trigger.columns.isEmpty || trigger.columns.any (· ∈ sets)) && trigger.when old new

variable [DecidableEq τ] (trigger : τ → Trigger ρ κ)

/-- The row when the update and the triggers that it starts are through; the idle triggers start in
the order of the list. -/
def settle : Nat → List τ → RowChange ρ κ → ρ → ρ
  | 0, _, change, row => change.apply row
  | depth + 1, idle, change, row =>
    let new := change.apply row
    (idle.filter fun t => (trigger t).fires change.sets row new).foldl
      (fun current t => settle depth (idle.erase t) ((trigger t).body new) current) new

variable {trigger}

omit [DecidableEq τ] in
theorem Trigger.when_of_fires {t : Trigger ρ κ} {sets : List κ} {old new : ρ}
    (fires : t.fires sets old new = true) : t.when old new = true :=
  (Bool.and_eq_true_iff.mp fires).2

/-- What a trigger that has seen such a row does keeps the other. -/
def Respects (trigger : τ → Trigger ρ κ) (seen kept : ρ → Prop) : Prop :=
  ∀ t old new current, (trigger t).when old new = true → seen new → kept current →
    kept (((trigger t).body new).apply current)

theorem settle_keeps {seen kept : ρ → Prop} (weaker : ∀ row, kept row → seen row)
    (respects : Respects trigger seen kept) {depth : Nat} {idle : List τ} {change : RowChange ρ κ}
    {row : ρ} (now : kept (change.apply row)) : kept (settle trigger depth idle change row) := by
  induction depth generalizing idle change row with
  | zero => exact now
  | succ depth ih =>
    refine List.foldlRecOn _ _ now fun current kept t listed => ?_
    have fires := (List.mem_filter.mp listed).2
    exact ih (respects t _ _ current (Trigger.when_of_fires fires) (weaker _ now) kept)

theorem settle_reaches {seen goal : ρ → Prop} (weaker : ∀ row, goal row → seen row)
    (respects : Respects trigger seen seen) (stays : Respects trigger seen goal) {depth : Nat}
    {idle : List τ} {change : RowChange ρ κ} {row : ρ} (now : seen (change.apply row)) {t : τ}
    (listed : t ∈ idle) (fires : (trigger t).fires change.sets row (change.apply row) = true)
    (reaches : ∀ current, seen current →
      goal (settle trigger depth (idle.erase t) ((trigger t).body (change.apply row)) current)) :
    goal (settle trigger (depth + 1) idle change row) := by
  have starts : t ∈ idle.filter fun t => (trigger t).fires change.sets row (change.apply row) :=
    List.mem_filter.mpr ⟨listed, fires⟩
  obtain ⟨before, after, split⟩ := List.append_of_mem starts
  have each {entry : τ} (member : entry ∈ before ++ t :: after) :
      (trigger entry).when row (change.apply row) = true := by
    rw [← split] at member
    exact Trigger.when_of_fires (List.mem_filter.mp member).2
  simp only [settle]
  rw [split, List.foldl_append, List.foldl_cons]
  refine List.foldlRecOn _ _ (reaches _ ?_) fun current reached entry later => ?_
  · refine List.foldlRecOn _ _ now fun current kept entry earlier => ?_
    have starts := each (List.mem_append_left _ earlier)
    exact settle_keeps (fun _ same => same) respects (respects _ _ _ _ starts now kept)
  · have starts := each (List.mem_append_right _ (List.mem_cons_of_mem _ later))
    exact settle_keeps weaker stays (stays _ _ _ _ starts now reached)

end Tomb.Lib
