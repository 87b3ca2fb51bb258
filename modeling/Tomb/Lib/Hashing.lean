import Mathlib.Data.List.AList

/-! Hash maps: values under distinct keys, handed out in an order that nobody may rely on; and the
rows of a list, grouped by a key. -/
namespace Tomb.Lib

abbrev HashMap (κ ν : Type) : Type := AList fun _ : κ => ν

structure VisitOrder (α : Type) where
  arrange : List α → List α
  perm : ∀ xs, (arrange xs).Perm xs

namespace HashMap

variable {κ ν ρ : Type} [DecidableEq κ]

def insertAll (map : HashMap κ ν) (pairs : List (κ × ν)) : HashMap κ ν :=
  pairs.foldl (fun map pair => AList.insert pair.1 pair.2 map) map

theorem insertAll_append (map : HashMap κ ν) (first rest : List (κ × ν)) :
    insertAll map (first ++ rest) = insertAll (insertAll map first) rest :=
  List.foldl_append

theorem lookup_insertAll (pairs : List (κ × ν)) (distinct : (pairs.map Prod.fst).Nodup)
    (map : HashMap κ ν) (key : κ) (value : ν) :
    (insertAll map pairs).lookup key = some value ↔
      (key, value) ∈ pairs ∨ (key ∉ pairs.map Prod.fst ∧ map.lookup key = some value) := by
  induction pairs generalizing map with
  | nil => simp [insertAll]
  | cons pair rest ih =>
    obtain ⟨fresh, distinct⟩ := List.nodup_cons.mp distinct
    rw [insertAll, List.foldl_cons, ← insertAll, ih distinct]
    by_cases same : key = pair.1
    · subst same
      rw [AList.lookup_insert]
      have notRest : (pair.1, value) ∉ rest := fun member =>
        fresh (List.mem_map.mpr ⟨_, member, rfl⟩)
      simp [notRest, fresh, Prod.ext_iff, eq_comm]
    · have other : (key, value) ≠ pair := fun eq => same (congrArg Prod.fst eq)
      rw [AList.lookup_insert_ne same]
      simp [same, other]

theorem lookup_insertAll_empty {pairs : List (κ × ν)} (distinct : (pairs.map Prod.fst).Nodup)
    (key : κ) (value : ν) :
    (insertAll ∅ pairs).lookup key = some value ↔ (key, value) ∈ pairs := by
  rw [lookup_insertAll pairs distinct]
  simp

def push (key : ρ → κ) (grouped : HashMap κ (List ρ)) (row : ρ) : HashMap κ (List ρ) :=
  AList.insert (key row) ((grouped.lookup (key row)).getD [] ++ [row]) grouped

def groupRows (key : ρ → κ) (rows : List ρ) : HashMap κ (List ρ) :=
  rows.foldl (push key) ∅

theorem lookup_push (key : ρ → κ) (grouped : HashMap κ (List ρ)) (row : ρ) (k : κ) :
    (push key grouped row).lookup k =
      if key row = k then some ((grouped.lookup k).getD [] ++ [row]) else grouped.lookup k := by
  by_cases same : key row = k
  · subst same
    rw [push, AList.lookup_insert, if_pos rfl]
  · rw [push, AList.lookup_insert_ne (Ne.symm same), if_neg same]

theorem lookup_pushAll (key : ρ → κ) (rows : List ρ) (grouped : HashMap κ (List ρ)) (k : κ) :
    (rows.foldl (push key) grouped).lookup k =
      if rows.filter (key · = k) = [] then grouped.lookup k
      else some ((grouped.lookup k).getD [] ++ rows.filter (key · = k)) := by
  induction rows generalizing grouped with
  | nil => simp
  | cons row rest ih =>
    rw [List.foldl_cons, ih, lookup_push]
    by_cases same : key row = k
    · by_cases empty : rest.filter (key · = k) = []
      · simp [same, empty]
      · simp [same, empty, List.append_assoc]
    · simp [same]

theorem lookup_groupRows (key : ρ → κ) (rows : List ρ) (k : κ) (group : List ρ) :
    (groupRows key rows).lookup k = some group ↔
      group = rows.filter (key · = k) ∧ group ≠ [] := by
  rw [groupRows, lookup_pushAll, AList.lookup_empty]
  by_cases empty : rows.filter (key · = k) = []
  · rw [if_pos empty, empty]
    simp
  · rw [if_neg empty, Option.getD_none, List.nil_append, Option.some.injEq]
    exact ⟨fun eq => ⟨eq.symm, eq ▸ empty⟩, fun eq => eq.1.symm⟩

end HashMap
end Tomb.Lib
