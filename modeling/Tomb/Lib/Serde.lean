import Mathlib.Data.Rat.Cast.Order
import Mathlib.Tactic.Ring
import Tomb.Lib.Json

/-! How derived serde types write themselves as json and read json: a codec for each kind of field,
records of named fields, and enums that carry their variant's name in a tag. A codec says beside
what it reads which shapes those are, and what its value is to a reader that has doubles only. -/
namespace Tomb.Lib

inductive Number where
  | int (value : Int) (inRange : -2 ^ 63 ≤ value ∧ value < 2 ^ 64)
  | float (value : ℚ)

/-- The integer nearest to an integer among those with 53 significant bits; a tie goes to the even
one. -/
def nearestDouble (n : Int) : Int :=
  let step := 2 ^ (n.natAbs.log2 - 52)
  let quotient := n.natAbs / step
  let rest := n.natAbs % step
  let rounded := if step < 2 * rest ∨ (step = 2 * rest ∧ quotient % 2 = 1) then quotient + 1
    else quotient
  n.sign * (rounded * step : Nat)

theorem nearestDouble_eq_self {n : Int} (small : n.natAbs < 2 ^ 53) : nearestDouble n = n := by
  have none : n.natAbs.log2 - 52 = 0 := by
    rcases Nat.eq_zero_or_pos n.natAbs with zero | positive
    · rw [zero]
      rfl
    · have := (Nat.log2_lt positive.ne').mpr small
      omega
  unfold nearestDouble
  simp only [none, pow_zero, Nat.mod_one, Nat.div_one, mul_zero, mul_one]
  rw [if_neg (by omega)]
  exact Int.sign_mul_natAbs n

namespace Number

def exact : Number → ℚ
  | .int value _ => value
  | .float value => value

def nearest : Number → ℚ
  | .int value _ => nearestDouble value
  | .float value => value

@[grind =] def reread (f : ℚ → ℚ) : Number → Number
  | .int value inRange => .int value inRange
  | .float value => .float (f value)

end Number

/-- Writing a json value as text and reading it back as a value with sorted objects. -/
@[grind =]
def carry (f : ℚ → ℚ) (value : Json Number) : Json Number := (value.map (Number.reread f)).canonical

section Carry

variable (f : ℚ → ℚ)

@[simp] theorem carry_null : carry f .null = .null := by simp [carry]

@[simp] theorem carry_bool (value : Bool) : carry f (.bool value) = .bool value := by simp [carry]

@[simp] theorem carry_number (value : Number) :
    carry f (.number value) = .number (value.reread f) := by
  simp [carry]

@[simp] theorem carry_string (value : String) : carry f (.string value) = .string value := by
  simp [carry]

@[simp] theorem carry_array (items : List (Json Number)) :
    carry f (.array items) = .array (items.map (carry f)) := by
  simp [carry, Function.comp_def]

@[simp] theorem carry_object (fields : List (String × Json Number)) :
    carry f (.object fields) =
      .object (collect (fields.map fun field => (field.1, carry f field.2))) := by
  simp [carry, Function.comp_def]

theorem carry_eq_null (value : Json Number) : carry f value = .null ↔ value = .null := by
  cases value <;> simp

end Carry

/-- A type of field: how it is written, if it is not skipped, and read, if it is there. -/
structure Codec (α : Type) where
  encode : α → Option (Json Number)
  decode : Option (Json Number) → Option α
  /-- The shapes that are read. -/
  reads : Option (Json Number) → Bool
  /-- The value of a reader of doubles, or its absence, stands for this one. -/
  Means : α → Option (Json ℚ) → Prop
  /-- Doubles hold the numbers in the value. -/
  Exact : Option (Json Number) → Prop
  decode_isSome : ∀ value, (decode value).isSome = reads value

namespace Codec

variable {α β : Type}

def u8 : Codec UInt8 where
  encode value := some (.number (.int value.toNat (by have := value.toNat_lt; omega)))
  decode
    | some (.number (.int value _)) =>
      if 0 ≤ value ∧ value < 256 then some (UInt8.ofNat value.toNat) else none
    | _ => none
  reads
    | some (.number (.int value _)) => decide (0 ≤ value ∧ value < 256)
    | _ => false
  Means value other := other = some (.number value.toNat)
  Exact _ := True
  decode_isSome value := by
    split
    · split <;> simp_all
    · simp_all

def i64 : Codec Int64 where
  encode value := some (.number (.int value.toInt
    ⟨value.le_toInt, by have := value.toInt_lt; omega⟩))
  decode
    | some (.number (.int value _)) => if value < 2 ^ 63 then some (Int64.ofInt value) else none
    | _ => none
  reads
    | some (.number (.int value _)) => decide (value < 2 ^ 63)
    | _ => false
  Means value other := other = some (.number value.toInt)
  Exact
    | some (.number value) => value.nearest = value.exact
    | _ => True
  decode_isSome value := by
    split
    · split <;> simp_all
    · simp_all

def bool : Codec Bool where
  encode value := some (.bool value)
  decode
    | some (.bool value) => some value
    | _ => none
  reads
    | some (.bool _) => true
    | _ => false
  Means value other := other = some (.bool value)
  Exact _ := True
  decode_isSome value := by split <;> simp_all

def string : Codec String where
  encode value := some (.string value)
  decode
    | some (.string value) => some value
    | _ => none
  reads
    | some (.string _) => true
    | _ => false
  Means value other := other = some (.string value)
  Exact _ := True
  decode_isSome value := by split <;> simp_all

/-- An enum without data: its variant's name, or an object with that name as its one key. -/
def unitEnum (name : α → String) (parse : String → Option α) : Codec α where
  encode value := some (.string (name value))
  decode
    | some (.string variant) => parse variant
    | some (.object [(variant, .null)]) => parse variant
    | some (.object [(variant, .object [])]) => parse variant
    | _ => none
  reads
    | some (.string variant) => (parse variant).isSome
    | some (.object [(variant, .null)]) => (parse variant).isSome
    | some (.object [(variant, .object [])]) => (parse variant).isSome
    | _ => false
  Means value other := other = some (.string (name value))
  Exact _ := True
  decode_isSome value := by split <;> simp_all

@[grind =] def value : Codec (Json Number) where
  encode := some
  decode := id
  reads := Option.isSome
  Means value other := other = some (value.map Number.exact)
  Exact value := value.map (Json.map Number.nearest) = value.map (Json.map Number.exact)
  decode_isSome _ := rfl

@[grind =] def optional (codec : Codec α) : Codec (Option α) where
  encode value := value.bind codec.encode
  decode
    | none => some none
    | some .null => some none
    | value => (codec.decode value).map some
  reads
    | none => true
    | some .null => true
    | value => codec.reads value
  Means
    | none, other => other = none ∨ other = some .null
    | some value, other => codec.Means value other
  Exact
    | none => True
    | some .null => True
    | value => codec.Exact value
  decode_isSome value := by
    split
    · rfl
    · rfl
    · simp [codec.decode_isSome]

def defaulted (fallback : α) (codec : Codec α) : Codec α where
  encode := codec.encode
  decode
    | none => some fallback
    | value => codec.decode value
  reads
    | none => true
    | value => codec.reads value
  Means := codec.Means
  Exact
    | none => True
    | value => codec.Exact value
  decode_isSome value := by
    split
    · rfl
    · exact codec.decode_isSome _

def iso (codec : Codec α) (pack : α → β) (unpack : β → α) : Codec β where
  encode value := codec.encode (unpack value)
  decode value := (codec.decode value).map pack
  reads := codec.reads
  Means value := codec.Means (unpack value)
  Exact := codec.Exact
  decode_isSome value := by rw [Option.isSome_map, codec.decode_isSome]

def decodeItems (codec : Codec α) : List (Json Number) → Option (List α)
  | [] => some []
  | item :: rest =>
    (codec.decode (some item)).bind fun value => (codec.decodeItems rest).map (value :: ·)

theorem decodeItems_isSome (codec : Codec α) (items : List (Json Number)) :
    (codec.decodeItems items).isSome = items.all fun item => codec.reads (some item) := by
  induction items with
  | nil => rfl
  | cons item rest ih =>
    rw [decodeItems, List.all_cons, ← ih, ← codec.decode_isSome]
    cases codec.decode (some item) <;> simp

def vec (codec : Codec α) : Codec (List α) where
  encode
    | [] => none
    | values => some (.array (values.map fun value => (codec.encode value).getD .null))
  decode
    | none => some []
    | some (.array items) => codec.decodeItems items
    | _ => none
  reads
    | none => true
    | some (.array items) => items.all fun item => codec.reads (some item)
    | _ => false
  Means values other := ∃ items, other = some (.array items) ∧
    List.Forall₂ (fun value item => codec.Means value (some item)) values items
  Exact
    | some (.array items) => ∀ item ∈ items, codec.Exact (some item)
    | _ => True
  decode_isSome value := by
    split
    · rfl
    · exact codec.decodeItems_isSome _
    · simp_all

end Codec

end Tomb.Lib
