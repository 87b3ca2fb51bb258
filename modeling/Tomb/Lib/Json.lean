import Mathlib.Data.List.Nodup
import Mathlib.Data.Rat.Defs

/-! Json values over a type of numbers, and what writing a value as text and reading it back does to
it when objects are kept sorted by key. -/
namespace Tomb.Lib

inductive Json (N : Type) where
  | null
  | bool (value : Bool)
  | number (value : N)
  | string (value : String)
  | array (items : List (Json N))
  | object (fields : List (String × Json N))

variable {N M V : Type}

/-! Fields of an object. -/

@[grind =] def lookup (fields : List (String × V)) (key : String) : Option V :=
  match fields with
  | [] => none
  | (name, value) :: rest => if name = key then some value else lookup rest key

def insertField (key : String) (value : V) : List (String × V) → List (String × V)
  | [] => [(key, value)]
  | (name, old) :: rest =>
    if key < name then (key, value) :: (name, old) :: rest
    else if key = name then (key, value) :: rest
    else (name, old) :: insertField key value rest

def collect (fields : List (String × V)) : List (String × V) :=
  fields.foldl (fun sorted field => insertField field.1 field.2 sorted) []

def present (fields : List (String × Option V)) : List (String × V) :=
  fields.filterMap fun field => field.2.map (Prod.mk field.1)

theorem lookup_map (f : V → N) (fields : List (String × V)) (key : String) :
    lookup (fields.map fun field => (field.1, f field.2)) key = (lookup fields key).map f := by
  induction fields with
  | nil => rfl
  | cons field rest ih =>
    simp only [List.map_cons, lookup]
    split
    · rfl
    · exact ih

theorem lookup_insertField (fields : List (String × V)) (name key : String) (value : V) :
    lookup (insertField name value fields) key =
      if name = key then some value else lookup fields key := by
  induction fields with
  | nil => rfl
  | cons field rest ih =>
    simp only [insertField]
    split
    · rfl
    · split
      · rename_i same
        simp only [lookup, ← same]
        split <;> rfl
      · rename_i differs
        simp only [lookup, ih]
        split
        · rename_i found
          rw [if_neg fun same => differs (same.trans found.symm)]
        · rfl

theorem lookup_eq_none {fields : List (String × V)} {key : String}
    (absent : key ∉ fields.map Prod.fst) : lookup fields key = none := by
  induction fields with
  | nil => rfl
  | cons field rest ih =>
    rw [List.map_cons, List.mem_cons, not_or] at absent
    rw [lookup, if_neg fun same => absent.1 same.symm]
    exact ih absent.2

theorem lookup_collect {fields : List (String × V)} (unique : (fields.map Prod.fst).Nodup)
    (key : String) : lookup (collect fields) key = lookup fields key := by
  have general (sorted : List (String × V)) :
      lookup (fields.foldl (fun sorted field => insertField field.1 field.2 sorted) sorted) key =
        (lookup fields key).or (lookup sorted key) := by
    induction fields generalizing sorted with
    | nil => rfl
    | cons field rest ih =>
      obtain ⟨fresh, unique⟩ := List.nodup_cons.mp unique
      rw [List.foldl_cons, ih unique, lookup_insertField]
      simp only [lookup]
      split
      · rename_i same
        rw [lookup_eq_none (same ▸ fresh)]
        rfl
      · rfl
  rw [collect, general]
  exact Option.or_none

theorem lookup_present {fields : List (String × Option V)} (unique : (fields.map Prod.fst).Nodup)
    (key : String) : lookup (present fields) key = (lookup fields key).join := by
  induction fields with
  | nil => rfl
  | cons field rest ih =>
    obtain ⟨name, value⟩ := field
    obtain ⟨fresh, unique⟩ := List.nodup_cons.mp unique
    have later := ih unique
    cases value with
    | none =>
      simp only [present, List.filterMap_cons, Option.map_none] at later ⊢
      rw [later, lookup]
      split
      · rename_i same
        rw [← same, lookup_eq_none fresh]
        rfl
      · rfl
    | some value =>
      simp only [present, List.filterMap_cons, Option.map_some, lookup] at later ⊢
      split
      · rfl
      · exact later

theorem present_names_sublist (fields : List (String × Option V)) :
    ((present fields).map Prod.fst).Sublist (fields.map Prod.fst) := by
  induction fields with
  | nil => exact List.Sublist.refl _
  | cons field rest ih =>
    obtain ⟨name, value⟩ := field
    cases value with
    | none => exact ih.cons name
    | some value => exact ih.cons_cons name

namespace Json

mutual

def map (f : N → M) : Json N → Json M
  | .null => .null
  | .bool value => .bool value
  | .number value => .number (f value)
  | .string value => .string value
  | .array items => .array (mapItems f items)
  | .object fields => .object (mapFields f fields)

def mapItems (f : N → M) : List (Json N) → List (Json M)
  | [] => []
  | item :: rest => item.map f :: mapItems f rest

def mapFields (f : N → M) : List (String × Json N) → List (String × Json M)
  | [] => []
  | (key, value) :: rest => (key, value.map f) :: mapFields f rest

end

mutual

def canonical : Json N → Json N
  | .null => .null
  | .bool value => .bool value
  | .number value => .number value
  | .string value => .string value
  | .array items => .array (canonicalItems items)
  | .object fields => .object (collect (canonicalFields fields))

def canonicalItems : List (Json N) → List (Json N)
  | [] => []
  | item :: rest => item.canonical :: canonicalItems rest

def canonicalFields : List (String × Json N) → List (String × Json N)
  | [] => []
  | (key, value) :: rest => (key, value.canonical) :: canonicalFields rest

end

mutual

def depth : Json N → Nat
  | .null | .bool _ | .number _ | .string _ => 0
  | .array items => depthItems items + 1
  | .object fields => depthFields fields + 1

def depthItems : List (Json N) → Nat
  | [] => 0
  | item :: rest => max item.depth (depthItems rest)

def depthFields : List (String × Json N) → Nat
  | [] => 0
  | (_, value) :: rest => max value.depth (depthFields rest)

end

theorem mapItems_eq (f : N → M) (items : List (Json N)) : mapItems f items = items.map (map f) := by
  induction items with
  | nil => rfl
  | cons item rest ih => exact congrArg _ ih

theorem mapFields_eq (f : N → M) (fields : List (String × Json N)) :
    mapFields f fields = fields.map fun field => (field.1, field.2.map f) := by
  induction fields with
  | nil => rfl
  | cons field rest ih => exact congrArg _ ih

theorem canonicalItems_eq (items : List (Json N)) :
    canonicalItems items = items.map canonical := by
  induction items with
  | nil => rfl
  | cons item rest ih => exact congrArg _ ih

theorem canonicalFields_eq (fields : List (String × Json N)) :
    canonicalFields fields = fields.map fun field => (field.1, field.2.canonical) := by
  induction fields with
  | nil => rfl
  | cons field rest ih => exact congrArg _ ih

@[simp] theorem map_null (f : N → M) : (null : Json N).map f = .null := rfl

@[simp] theorem map_bool (f : N → M) (value : Bool) :
    (bool value : Json N).map f = .bool value := rfl

@[simp] theorem map_number (f : N → M) (value : N) :
    (number value).map f = .number (f value) := rfl

@[simp] theorem map_string (f : N → M) (value : String) :
    (string value : Json N).map f = .string value := rfl

@[simp] theorem map_array (f : N → M) (items : List (Json N)) :
    (array items).map f = .array (items.map (map f)) :=
  congrArg array (mapItems_eq f items)

@[simp] theorem map_object (f : N → M) (fields : List (String × Json N)) :
    (object fields).map f = .object (fields.map fun field => (field.1, field.2.map f)) :=
  congrArg object (mapFields_eq f fields)

@[simp] theorem canonical_null : (null : Json N).canonical = .null := rfl

@[simp] theorem canonical_bool (value : Bool) :
    (bool value : Json N).canonical = .bool value := rfl

@[simp] theorem canonical_number (value : N) : (number value).canonical = .number value := rfl

@[simp] theorem canonical_string (value : String) :
    (string value : Json N).canonical = .string value := rfl

@[simp] theorem canonical_array (items : List (Json N)) :
    (array items).canonical = .array (items.map canonical) :=
  congrArg array (canonicalItems_eq items)

@[simp] theorem canonical_object (fields : List (String × Json N)) :
    (object fields).canonical =
      .object (collect (fields.map fun field => (field.1, field.2.canonical))) :=
  congrArg (fun fields => object (collect fields)) (canonicalFields_eq fields)

end Json

end Tomb.Lib
