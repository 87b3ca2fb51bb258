import Mathlib.Algebra.Ring.Nat
import Tomb.Lib.Json

/-! Object schemas of a validating parser in JavaScript: what a schema accepts, and the value it
hands on. Numbers are doubles, by their values. -/
namespace Tomb.Lib

/-- A schema of a field: the outer option is a rejection, the inner ones are `undefined`. -/
structure Schema where
  parse : Option (Json ℚ) → Option (Option (Json ℚ))
  /-- The shapes that are accepted. -/
  accepts : Option (Json ℚ) → Bool
  parse_isSome : ∀ value, (parse value).isSome = accepts value

namespace Schema

def string : Schema where
  parse
    | some (.string value) => some (some (.string value))
    | _ => none
  accepts
    | some (.string _) => true
    | _ => false
  parse_isSome value := by split <;> simp_all

def boolean : Schema where
  parse
    | some (.bool value) => some (some (.bool value))
    | _ => none
  accepts
    | some (.bool _) => true
    | _ => false
  parse_isSome value := by split <;> simp_all

theorem string_defined (item : Json ℚ) : string.parse (some item) ≠ some none := by
  cases item <;> simp [string]

@[grind =] def number (check : ℚ → Bool) : Schema where
  parse
    | some (.number value) => if check value then some (some (.number value)) else none
    | _ => none
  accepts
    | some (.number value) => check value
    | _ => false
  parse_isSome value := by
    split
    · split <;> simp_all
    · simp_all

def isSafeInteger (value : ℚ) : Bool := value.isInt && decide (value.num.natAbs < 2 ^ 53)

def enum (options : List String) : Schema where
  parse
    | some (.string value) => if value ∈ options then some (some (.string value)) else none
    | _ => none
  accepts
    | some (.string value) => decide (value ∈ options)
    | _ => false
  parse_isSome value := by
    split
    · split <;> simp_all
    · simp_all

@[grind =] def literal (value : String) : Schema := enum [value]

def unknown : Schema where
  parse := some
  accepts _ := true
  parse_isSome _ := rfl

def optional (schema : Schema) : Schema where
  parse
    | none => some none
    | value => schema.parse value
  accepts
    | none => true
    | value => schema.accepts value
  parse_isSome value := by
    split
    · rfl
    · exact schema.parse_isSome _

def default (schema : Schema) (fallback : Json ℚ) : Schema where
  parse
    | none => some (some fallback)
    | value => schema.parse value
  accepts
    | none => true
    | value => schema.accepts value
  parse_isSome value := by
    split
    · rfl
    · exact schema.parse_isSome _

def parseItems (schema : Schema) : List (Json ℚ) → Option (List (Json ℚ))
  | [] => some []
  | item :: rest =>
    (schema.parse (some item)).bind fun value =>
      (schema.parseItems rest).map (value.getD .null :: ·)

theorem parseItems_isSome (schema : Schema) (items : List (Json ℚ)) :
    (schema.parseItems items).isSome = items.all fun item => schema.accepts (some item) := by
  induction items with
  | nil => rfl
  | cons item rest ih =>
    rw [parseItems, List.all_cons, ← ih, ← schema.parse_isSome]
    cases schema.parse (some item) <;> simp

def array (schema : Schema) : Schema where
  parse
    | some (.array items) => (schema.parseItems items).map fun values => some (.array values)
    | _ => none
  accepts
    | some (.array items) => items.all fun item => schema.accepts (some item)
    | _ => false
  parse_isSome value := by
    split
    · rw [Option.isSome_map, schema.parseItems_isSome]
    · simp_all

end Schema

structure Shape where
  names : List String
  parse : (String → Option (Json ℚ)) → Option (List (String × Option (Json ℚ)))
  accepts : (String → Option (Json ℚ)) → Bool
  parse_isSome : ∀ get, (parse get).isSome = accepts get
  parse_names : ∀ get fields, parse get = some fields → fields.map Prod.fst = names

namespace Shape

def nil : Shape where
  names := []
  parse _ := some []
  accepts _ := true
  parse_isSome _ := rfl
  parse_names get fields parsed := by rw [← Option.some.inj parsed, List.map_nil]

def cons (name : String) (schema : Schema) (rest : Shape) : Shape where
  names := name :: rest.names
  parse get := (schema.parse (get name)).bind fun value =>
    (rest.parse get).map ((name, value) :: ·)
  accepts get := schema.accepts (get name) && rest.accepts get
  parse_isSome get := by
    rw [← schema.parse_isSome, ← rest.parse_isSome]
    cases schema.parse (get name) <;> simp
  parse_names get fields parsed := by
    obtain ⟨value, -, parsed⟩ := Option.bind_eq_some_iff.mp parsed
    obtain ⟨others, found, rfl⟩ := Option.map_eq_some_iff.mp parsed
    rw [List.map_cons, rest.parse_names get others found]

end Shape

namespace Schema

def object (shape : Shape) : Schema where
  parse
    | some (.object entries) =>
      (shape.parse (lookup entries)).map fun fields => some (.object (present fields))
    | _ => none
  accepts
    | some (.object entries) => shape.accepts (lookup entries)
    | _ => false
  parse_isSome value := by
    split
    · rw [Option.isSome_map, shape.parse_isSome]
    · simp_all

theorem object_defined (shape : Shape) (item : Json ℚ) :
    (object shape).parse (some item) ≠ some none := by
  cases item <;> simp [object]

@[grind =] def option (options : List (String × Shape)) : Json ℚ → Option Shape
  | .string name => lookup options name
  | _ => none

def discriminatedUnion (key : String) (options : List (String × Shape)) : Schema where
  parse
    | some (.object entries) =>
      ((lookup entries key).bind (option options)).bind fun shape =>
        (object shape).parse (some (.object entries))
    | _ => none
  accepts
    | some (.object entries) =>
      ((lookup entries key).bind (option options)).any fun shape => shape.accepts (lookup entries)
    | _ => false
  parse_isSome value := by
    split
    · rename_i entries
      cases (lookup entries key).bind (option options) with
      | none => rfl
      | some shape => simp [object, shape.parse_isSome]
    · simp_all

end Schema

end Tomb.Lib
