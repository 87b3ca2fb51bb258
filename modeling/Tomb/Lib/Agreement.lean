import Tomb.Lib.Record
import Tomb.Lib.Schema

/-! When a serde codec and a schema read the same json: where both read it, the schema's value
stands for the codec's exactly if doubles hold the numbers in it. -/
namespace Tomb.Lib

abbrev Json.nearest (value : Json Number) : Json ℚ := value.map Number.nearest

section

variable {α β μ : Type}

def Codec.Agrees (codec : Codec α) (schema : Schema) : Prop :=
  ∀ json value other, codec.decode json = some value →
    schema.parse (json.map Json.nearest) = some other →
    (codec.Means value other ↔ codec.Exact json)

def Fields.Agree (fields : Fields α) (shape : Shape) : Prop :=
  ∀ get value others, fields.decode get = some value →
    shape.parse (fun name => (get name).map Json.nearest) = some others →
    (fields.Means value (fun name => (lookup others name).join) ↔ fields.Exact get)

theorem Codec.string_agrees : Codec.string.Agrees .string := by
  intro json value other read parsed
  simp only [Codec.string] at read
  split at read
  · cases Option.some.inj read
    simp only [Option.map_some, Json.nearest, Json.map_string, Schema.string] at parsed
    exact iff_of_true (Option.some.inj parsed).symm trivial
  · cases read

theorem Codec.bool_agrees : Codec.bool.Agrees .boolean := by
  intro json value other read parsed
  simp only [Codec.bool] at read
  split at read
  · cases Option.some.inj read
    simp only [Option.map_some, Json.nearest, Json.map_bool, Schema.boolean] at parsed
    exact iff_of_true (Option.some.inj parsed).symm trivial
  · cases read

theorem Codec.u8_agrees (check : ℚ → Bool) : Codec.u8.Agrees (.number check) := by
  intro json value other read parsed
  simp only [Codec.u8] at read
  split at read
  · rename_i n inRange
    split at read
    · rename_i bounds
      cases Option.some.inj read
      simp only [Option.map_some, Json.nearest, Json.map_number, Schema.number, Number.nearest]
        at parsed
      rw [nearestDouble_eq_self (by omega)] at parsed
      split at parsed
      · refine iff_of_true ?_ trivial
        have small : (UInt8.ofNat n.toNat).toNat = n.toNat :=
          UInt8.toNat_ofNat_of_lt' (show n.toNat < 2 ^ 8 by omega)
        have same : (n.toNat : ℚ) = n := by rw [← Int.cast_natCast, Int.toNat_of_nonneg bounds.1]
        simp only [Codec.u8]
        rw [← Option.some.inj parsed, small, same]
      · cases parsed
    · cases read
  · cases read

theorem Codec.i64_agrees (check : ℚ → Bool) : Codec.i64.Agrees (.number check) := by
  intro json value other read parsed
  simp only [Codec.i64] at read
  split at read
  · rename_i n inRange
    split at read
    · rename_i bounds
      cases Option.some.inj read
      simp only [Option.map_some, Json.nearest, Json.map_number, Schema.number] at parsed
      split at parsed
      · rw [← Option.some.inj parsed]
        simp only [Codec.i64, Option.some.injEq, Json.number.injEq, Number.exact]
        rw [Int64.toInt_ofInt_of_le inRange.1 bounds]
      · cases parsed
    · cases read
  · cases read

theorem Codec.unitEnum_agrees {name : α → String} {parse : String → Option α}
    (inverse : ∀ variant value, parse variant = some value → name value = variant)
    (options : List String) : (Codec.unitEnum name parse).Agrees (.enum options) := by
  intro json value other read parsed
  refine iff_of_true ?_ trivial
  simp only [Codec.unitEnum] at read ⊢
  split at read
  · rename_i variant
    simp only [Option.map_some, Json.nearest, Json.map_string, Schema.enum] at parsed
    split at parsed
    · rw [← Option.some.inj parsed, inverse variant value read]
    · cases parsed
  · simp [Schema.enum] at parsed
  · simp [Schema.enum] at parsed
  · cases read

theorem Codec.value_optional_agrees : Codec.value.optional.Agrees (.optional .unknown) := by
  intro json value other read parsed
  cases json with
  | none =>
    cases Option.some.inj read
    cases Option.some.inj parsed
    exact iff_of_true (.inl rfl) trivial
  | some json =>
    have same : other = some json.nearest := (Option.some.inj parsed).symm
    subst same
    simp only [Codec.optional] at read ⊢
    split at read
    · rename_i absent; cases absent
    · rename_i null
      cases Option.some.inj null
      cases Option.some.inj read
      exact iff_of_true (.inr (by simp [Json.nearest])) trivial
    · rename_i absent null
      simp only [Codec.value, id, Option.map_some, Option.some.injEq] at read
      subst read
      simp only [Codec.value, Option.map_some, Option.some.injEq]

variable {codec : Codec α} {schema : Schema}

theorem Codec.Agrees.optional (agrees : codec.Agrees schema)
    (strict : schema.accepts (some .null) = false) : codec.optional.Agrees schema.optional := by
  intro json value other read parsed
  simp only [Codec.optional] at read ⊢
  split at read
  · cases Option.some.inj read
    cases Option.some.inj parsed
    exact iff_of_true (.inl rfl) trivial
  · have none := schema.parse_isSome (some .null)
    rw [strict] at none
    simp only [Option.map_some, Json.nearest, Json.map_null, Schema.optional] at parsed
    rw [parsed] at none
    cases none
  · rename_i absent null
    obtain ⟨inner, found, rfl⟩ := Option.map_eq_some_iff.mp read
    cases json with
    | none => exact absurd rfl absent
    | some json =>
      simp only [Option.map_some, Schema.optional] at parsed
      exact agrees (some json) inner other found parsed

theorem Codec.Agrees.iso (agrees : codec.Agrees schema)
    {pack : α → β} {unpack : β → α} (inverse : ∀ value, unpack (pack value) = value) :
    (codec.iso pack unpack).Agrees schema := by
  intro json value other read parsed
  obtain ⟨inner, found, rfl⟩ := Option.map_eq_some_iff.mp read
  simp only [Codec.iso, inverse]
  exact agrees json inner other found parsed

theorem Codec.Agrees.defaulted (agrees : codec.Agrees schema)
    {fallback : α} {default : Json ℚ} (same : codec.Means fallback (some default)) :
    (codec.defaulted fallback).Agrees (schema.default default) := by
  intro json value other read parsed
  cases json with
  | none =>
    cases Option.some.inj read
    cases Option.some.inj parsed
    exact iff_of_true same trivial
  | some json => exact agrees (some json) value other read parsed

theorem Codec.Agrees.vec (agrees : codec.Agrees schema)
    (defined : ∀ item, schema.parse (some item) ≠ some none) :
    codec.vec.Agrees (schema.array.default (.array [])) := by
  have items (jsons : List (Json Number)) (values : List α) (others : List (Json ℚ))
      (read : codec.decodeItems jsons = some values)
      (parsed : schema.parseItems (jsons.map Json.nearest) = some others) :
      List.Forall₂ (fun value item => codec.Means value (some item)) values others ↔
        ∀ item ∈ jsons, codec.Exact (some item) := by
    induction jsons generalizing values others with
    | nil =>
      cases Option.some.inj read
      cases Option.some.inj parsed
      exact iff_of_true .nil (by simp)
    | cons json rest ih =>
      obtain ⟨value, readFirst, read⟩ := Option.bind_eq_some_iff.mp read
      obtain ⟨values, readRest, rfl⟩ := Option.map_eq_some_iff.mp read
      obtain ⟨other, parsedFirst, parsed⟩ := Option.bind_eq_some_iff.mp parsed
      obtain ⟨others, parsedRest, rfl⟩ := Option.map_eq_some_iff.mp parsed
      cases other with
      | none => exact absurd parsedFirst (defined _)
      | some other =>
        rw [List.forall₂_cons, List.forall_mem_cons, ih values others readRest parsedRest]
        exact and_congr_left' (agrees (some json) value (some other) readFirst parsedFirst)
  intro json values other read parsed
  cases json with
  | none =>
    cases Option.some.inj read
    cases Option.some.inj parsed
    exact iff_of_true ⟨[], rfl, .nil⟩ trivial
  | some json =>
    cases json with
    | array jsons =>
      simp only [Option.map_some, Json.nearest, Json.map_array, Schema.default, Schema.array]
        at parsed
      obtain ⟨others, accepted, rfl⟩ := Option.map_eq_some_iff.mp parsed
      have same := items jsons values others read accepted
      simp only [Codec.vec, Option.some.injEq, Json.array.injEq, exists_eq_left']
      exact same
    | null | bool | number | string | object => cases read

@[simp] theorem Fields.nil_agrees : Fields.nil.Agree .nil :=
  fun _ _ _ _ _ => Iff.rfl

theorem Fields.Agree.cons {codec : Codec α} {schema : Schema} {fields : Fields β} {shape : Shape}
    (first : codec.Agrees schema) (rest : fields.Agree shape) {name : String}
    (fresh : name ∉ fields.names) :
    (Fields.cons name codec fields).Agree (.cons name schema shape) := by
  intro get value others read parsed
  obtain ⟨a, readFirst, read⟩ := Option.bind_eq_some_iff.mp read
  obtain ⟨b, readRest, rfl⟩ := Option.map_eq_some_iff.mp read
  obtain ⟨other, parsedFirst, parsed⟩ := Option.bind_eq_some_iff.mp parsed
  obtain ⟨others, parsedRest, rfl⟩ := Option.map_eq_some_iff.mp parsed
  have head : (lookup ((name, other) :: others) name).join = other := by
    rw [lookup, if_pos rfl]
    rfl
  simp only [Fields.cons]
  rw [head, first _ _ _ readFirst parsedFirst, ← rest _ _ _ readRest parsedRest]
  refine and_congr_right' (fields.means_congr _ _ _ fun key member => ?_)
  rw [lookup, if_neg]
  rintro rfl
  exact fresh member

/-- A field of the schema that the codec does not have, such as the tag. -/
theorem Fields.Agree.tagged {fields : Fields β} {shape : Shape} (rest : fields.Agree shape)
    {name : String} (fresh : name ∉ fields.names) : fields.Agree (.cons name schema shape) := by
  intro get value others read parsed
  obtain ⟨other, -, parsed⟩ := Option.bind_eq_some_iff.mp parsed
  obtain ⟨others, parsedRest, rfl⟩ := Option.map_eq_some_iff.mp parsed
  rw [← rest _ _ _ read parsedRest]
  refine fields.means_congr _ _ _ fun key member => ?_
  rw [lookup, if_neg]
  rintro rfl
  exact fresh member

theorem Codec.Agrees.record {fields : Fields α} {shape : Shape} (agree : fields.Agree shape)
    (unique : shape.names.Nodup) : (Codec.record fields).Agrees (.object shape) := by
  intro json value other read parsed
  cases json with
  | none => cases read
  | some json =>
    cases json with
    | object entries =>
      simp only [Option.map_some, Json.nearest, Json.map_object, Schema.object] at parsed
      obtain ⟨others, accepted, rfl⟩ := Option.map_eq_some_iff.mp parsed
      have names := shape.parse_names _ _ accepted
      simp only [funext fun name => lookup_map (Json.map Number.nearest) entries name] at accepted
      simp only [Codec.record, Option.some.injEq, Json.object.injEq, exists_eq_left']
      rw [← agree _ _ _ read accepted]
      refine fields.means_congr _ _ _ fun name _ => ?_
      exact lookup_present (names ▸ unique) name
    | array items => simp [Schema.object] at parsed
    | null | bool | number | string => cases read

/-! Enums against discriminated unions. -/

/-- A variant and the option of the same name, which has the tag as its first field. -/
structure Variant.Matches (tag : String) (variant : Variant μ) (option : String × Shape) :
    Prop where
  name : option.1 = variant.name
  shape : ∃ rest, option.2 = .cons tag (.literal variant.name) rest ∧ variant.fields.Agree rest
  fresh : tag ∉ variant.fields.names
  unique : option.2.names.Nodup

/-- The two tables declare the same variants, which agree one by one. -/
structure Variant.Match (tag : String) (variants : List (Variant μ))
    (options : List (String × Shape)) : Prop where
  agree : List.Forall₂ (Variant.Matches tag) variants options
  distinct : (variants.map Variant.name).Nodup

variable {variants : List (Variant μ)} {options : List (String × Shape)}

theorem Variant.Match.named {tag : String} (tables : Variant.Match tag variants options) (name : String) :
    (Variant.named variants name = none ∧ lookup options name = none) ∨
      ∃ variant shape, Variant.named variants name = some variant ∧
        lookup options name = some shape ∧ variant.Matches tag (name, shape) := by
  have agree := tables.agree
  induction agree with
  | nil => exact .inl ⟨rfl, rfl⟩
  | @cons variant option variants options first rest ih =>
    obtain ⟨found, shape⟩ := option
    have same : found = variant.name := first.name
    by_cases here : variant.name = name
    · refine .inr ⟨variant, shape, ?_, ?_, ?_⟩
      · simp [Variant.named, here]
      · rw [lookup, if_pos (same.trans here)]
      · rw [← here, ← same]
        exact first
    · have tables' : Variant.Match tag variants options :=
        ⟨rest, (List.nodup_cons.mp tables.distinct).2⟩
      have skip : Variant.named (variant :: variants) name = Variant.named variants name := by
        simp [Variant.named, here]
      rw [skip, lookup, if_neg fun found => here (same.symm.trans found)]
      exact ih tables'

theorem Variant.Match.denotes_iff {tag : String} (tables : Variant.Match tag variants options)
    {variant : Variant μ} (member : variant ∈ variants) {shape : Shape}
    (matched : variant.Matches tag (variant.name, shape)) {get : String → Option (Json Number)}
    {value : μ} {others : List (String × Option (Json ℚ))} (read : variant.decode get = some value)
    (parsed : shape.parse (fun name => (get name).map Json.nearest) = some others) :
    Variant.Denotes tag variants value (present others) ↔ variant.fields.Exact get := by
  obtain ⟨rest, rfl, agree⟩ := matched.shape
  have names := Shape.parse_names _ _ _ parsed
  have reading (name : String) : lookup (present others) name = (lookup others name).join :=
    lookup_present (names ▸ matched.unique) name
  obtain ⟨payload, readFields, rfl⟩ := Option.map_eq_some_iff.mp read
  have tagged : lookup (present others) tag = some (.string variant.name) := by
    obtain ⟨other, literal, parsed⟩ := Option.bind_eq_some_iff.mp parsed
    obtain ⟨others, -, rfl⟩ := Option.map_eq_some_iff.mp parsed
    rw [reading, lookup, if_pos rfl]
    simp only [Schema.literal, Schema.enum] at literal
    split at literal
    · rename_i found
      split at literal
      · rename_i option
        rw [← Option.some.inj literal, List.mem_singleton.mp option]
        rfl
      · cases literal
    · cases literal
  have means : variant.fields.Means payload (lookup (present others)) ↔
      variant.fields.Exact get := by
    rw [← agree.tagged matched.fresh get payload others readFields parsed]
    exact variant.fields.means_congr _ _ _ fun name _ => reading name
  rw [← means]
  constructor
  · rintro ⟨other, known, name, payload', made, held⟩
    rw [tagged] at name
    have same : other = variant := List.inj_on_of_nodup_map tables.distinct known member
      (Json.string.inj (Option.some.inj name)).symm
    subst same
    exact other.make_injective made ▸ held
  · exact fun held => ⟨variant, member, tagged, payload, rfl, held⟩

theorem Variant.Match.agrees {tag : String} (tables : Variant.Match tag variants options)
    (entry : μ → String × List (String × Option (Json Number))) :
    (Codec.tagged tag variants entry).Agrees (.discriminatedUnion tag options) := by
  intro json value other read parsed
  cases json with
  | none => cases read
  | some json =>
    cases json with
    | object entries =>
      obtain ⟨variant, chosen, read⟩ := Option.bind_eq_some_iff.mp read
      obtain ⟨value', tagValue, chosen⟩ := Option.bind_eq_some_iff.mp chosen
      simp only [Option.map_some, Json.nearest, Json.map_object, Schema.discriminatedUnion,
        lookup_map, tagValue, Option.bind_some] at parsed
      obtain ⟨shape, option, accepted⟩ := Option.bind_eq_some_iff.mp parsed
      cases value' with
      | string name =>
        rw [Json.map_string, Schema.option] at option
        rw [Variant.tagged] at chosen
        rcases tables.named name with ⟨absent, -⟩ | ⟨variant', shape', named, found, matched⟩
        · rw [absent] at chosen
          cases chosen
        · cases Option.some.inj (named.symm.trans chosen)
          cases Option.some.inj (found.symm.trans option)
          have same : variant.name = name := Variant.name_of_named named
          subst same
          obtain ⟨others, kept, rfl⟩ := Option.map_eq_some_iff.mp accepted
          rw [show lookup (entries.map fun field => (field.1, Json.map Number.nearest field.2)) =
            fun name => (lookup entries name).map Json.nearest from
              funext fun name => lookup_map _ entries name] at kept
          have member := Variant.mem_of_tagged (show
            Variant.tagged variants (.string variant.name) = some variant from named)
          simp only [Codec.tagged, Option.some.injEq, Json.object.injEq, exists_eq_left']
          rw [tables.denotes_iff member matched read kept]
          constructor
          · intro exact other known name
            rw [tagValue] at name
            have same : other = variant := List.inj_on_of_nodup_map tables.distinct known member
              (Json.string.inj (Option.some.inj name)).symm
            exact same ▸ exact
          · exact fun exact => exact variant member tagValue
      | null | bool | number | array | object => simp [Schema.option] at option
    | array items => simp [Schema.discriminatedUnion] at parsed
    | null | bool | number | string => cases read

/-! Where a codec and a schema part ways. -/

/-- Somewhere in a value there is a shape that only the reader takes (`extra`), that only the schema
takes (`missing`), or that neither takes (`refused`). -/
structure Gap {X : Type} (reads accepts : X → Bool) where
  (extra missing refused : X → Bool)
  reads_eq : ∀ x, reads x = (!missing x && !refused x)
  accepts_eq : ∀ x, accepts x = (!extra x && !refused x)

def Gap.same {X : Type} {reads accepts : X → Bool} (same : ∀ x, reads x = accepts x) :
    Gap reads accepts where
  extra _ := false
  missing _ := false
  refused x := !reads x
  reads_eq x := by simp
  accepts_eq x := by simp [same]

structure Codec.Against (codec : Codec α) (schema : Schema) extends
    Gap codec.reads fun json => schema.accepts (json.map Json.nearest) where
  agrees : codec.Agrees schema

structure Fields.Against (fields : Fields α) (shape : Shape) extends
    Gap fields.reads fun get => shape.accepts fun name => (get name).map Json.nearest where
  agree : fields.Agree shape

namespace Codec

def stringAgainst : Codec.string.Against .string where
  toGap := .same fun json => by
    rcases json with _ | json
    · rfl
    · cases json <;> simp [Codec.string, Schema.string, Json.nearest]
  agrees := string_agrees

def boolAgainst : Codec.bool.Against .boolean where
  toGap := .same fun json => by
    rcases json with _ | json
    · rfl
    · cases json <;> simp [Codec.bool, Schema.boolean, Json.nearest]
  agrees := bool_agrees

def valueAgainst : Codec.value.optional.Against (.optional .unknown) where
  toGap := .same fun json => by
    rcases json with _ | json
    · rfl
    · cases json <;> simp [Codec.value, Codec.optional, Schema.optional, Schema.unknown]
  agrees := value_optional_agrees

def u8Against {check : ℚ → Bool} (wide : ∀ n : Int, 0 ≤ n → n < 256 → check n = true) :
    Codec.u8.Against (.number check) where
  extra _ := false
  missing
    | some (.number (.int value _)) =>
      check (nearestDouble value) && !decide (0 ≤ value ∧ value < 256)
    | some (.number (.float value)) => check value
    | _ => false
  refused
    | some (.number value) => !check value.nearest
    | _ => true
  reads_eq json := by
    rcases json with _ | json
    · rfl
    · cases json with
      | number value =>
        cases value with
        | int value inRange =>
          by_cases small : 0 ≤ value ∧ value < 256
          · have passes := wide value small.1 small.2
            simp [Codec.u8, small, Number.nearest, nearestDouble_eq_self (n := value) (by omega),
              passes]
          · have outside : decide (0 ≤ value ∧ value < 256) = false := decide_eq_false small
            simp only [Codec.u8, outside, Number.nearest]
            cases check (nearestDouble value) <;> rfl
        | float value => simp [Codec.u8, Number.nearest]
      | _ => rfl
  accepts_eq json := by
    rcases json with _ | json
    · rfl
    · cases json <;> simp [Schema.number, Json.nearest]
  agrees := u8_agrees check

def i64Against : Codec.i64.Against (.number fun _ => true) where
  extra _ := false
  missing
    | some (.number (.int value _)) => decide (2 ^ 63 ≤ value)
    | some (.number (.float _)) => true
    | _ => false
  refused
    | some (.number _) => false
    | _ => true
  reads_eq json := by
    rcases json with _ | json
    · rfl
    · cases json with
      | number value =>
        cases value with
        | int value inRange =>
          simp only [Codec.i64, Bool.not_false, Bool.and_true, ← decide_not, not_le]
        | float value => rfl
      | _ => rfl
  accepts_eq json := by
    rcases json with _ | json
    · rfl
    · cases json <;> simp [Schema.number, Json.nearest]
  agrees := i64_agrees _

def unitEnumAgainst {name : α → String} {parse : String → Option α}
    (inverse : ∀ variant value, parse variant = some value → name value = variant)
    {options : List String} (known : ∀ variant, (parse variant).isSome = decide (variant ∈ options)) :
    (Codec.unitEnum name parse).Against (.enum options) where
  extra
    | some (.string _) => false
    | json => (Codec.unitEnum name parse).reads json
  missing _ := false
  refused json := !(Codec.unitEnum name parse).reads json
  reads_eq json := by simp
  accepts_eq json := by
    rcases json with _ | json
    · rfl
    · cases json with
      | string variant => simp [Schema.enum, Json.nearest, Codec.unitEnum, known]
      | _ => simp [Schema.enum, Json.nearest]
  agrees := unitEnum_agrees inverse options

def Against.optional {codec : Codec α} {schema : Schema} (against : codec.Against schema)
    (strict : schema.accepts (some .null) = false) :
    codec.optional.Against schema.optional where
  extra
    | none => false
    | some .null => true
    | json => against.extra json
  missing
    | none => false
    | some .null => false
    | json => against.missing json
  refused
    | none => false
    | some .null => false
    | json => against.refused json
  reads_eq json := by
    rcases json with _ | json
    · rfl
    · cases json with
      | null => rfl
      | _ => exact against.reads_eq _
  accepts_eq json := by
    rcases json with _ | json
    · rfl
    · cases json with
      | null => simpa [Schema.optional] using strict
      | _ => exact against.accepts_eq (some _)
  agrees := against.agrees.optional strict

def Against.iso {codec : Codec α} {schema : Schema} (against : codec.Against schema)
    {pack : α → β} {unpack : β → α} (inverse : ∀ value, unpack (pack value) = value) :
    (codec.iso pack unpack).Against schema where
  toGap := against.toGap
  agrees := against.agrees.iso inverse

def Against.defaulted {codec : Codec α} {schema : Schema} (against : codec.Against schema)
    {fallback : α} {default : Json ℚ} (same : codec.Means fallback (some default)) :
    (codec.defaulted fallback).Against (schema.default default) where
  extra json := json.isSome && against.extra json
  missing json := json.isSome && against.missing json
  refused json := json.isSome && against.refused json
  reads_eq json := by
    cases json with
    | none => rfl
    | some json => simp [Codec.defaulted, against.reads_eq]
  accepts_eq json := by
    cases json with
    | none => rfl
    | some json => simpa [Schema.default] using against.accepts_eq (some json)
  agrees := against.agrees.defaulted same

def Against.vec {codec : Codec α} {schema : Schema} (against : codec.Against schema)
    (defined : ∀ item, schema.parse (some item) ≠ some none) :
    codec.vec.Against (schema.array.default (.array [])) where
  extra
    | some (.array items) => items.any fun item => against.extra (some item)
    | _ => false
  missing
    | some (.array items) => items.any fun item => against.missing (some item)
    | _ => false
  refused
    | none => false
    | some (.array items) => items.any fun item => against.refused (some item)
    | _ => true
  reads_eq json := by
    rcases json with _ | json
    · rfl
    · cases json with
      | array items =>
        simp only [Codec.vec]
        induction items with
        | nil => rfl
        | cons item rest ih =>
          simp only [List.all_cons, List.any_cons, ih, against.reads_eq (some item), Bool.not_or]
          ac_rfl
      | _ => rfl
  accepts_eq json := by
    rcases json with _ | json
    · rfl
    · cases json with
      | array items =>
        simp only [Option.map_some, Json.nearest, Json.map_array, Schema.default, Schema.array,
          List.all_map]
        induction items with
        | nil => rfl
        | cons item rest ih =>
          have first := against.accepts_eq (some item)
          simp only [Option.map_some] at first
          simp only [List.all_cons, List.any_cons, ih, Function.comp_apply, first, Bool.not_or]
          ac_rfl
      | _ => simp [Schema.default, Schema.array, Json.nearest]
  agrees := against.agrees.vec defined

end Codec

namespace Fields

def nilAgainst : Fields.nil.Against .nil where
  toGap := .same fun _ => rfl
  agree := nil_agrees

def Against.cons {codec : Codec α} {schema : Schema} {fields : Fields β} {shape : Shape}
    {name : String} (first : codec.Against schema) (rest : fields.Against shape)
    (fresh : name ∉ fields.names := by decide) :
    (Fields.cons name codec fields).Against (.cons name schema shape) where
  extra get := first.extra (get name) || rest.extra get
  missing get := first.missing (get name) || rest.missing get
  refused get := first.refused (get name) || rest.refused get
  reads_eq get := by
    simp only [Fields.cons, first.reads_eq, rest.reads_eq, Bool.not_or]
    ac_rfl
  accepts_eq get := by
    simp only [Shape.cons, first.accepts_eq, rest.accepts_eq, Bool.not_or]
    ac_rfl
  agree := Fields.Agree.cons first.agrees rest.agree fresh

/-- Both sides take the fields and doubles hold the numbers in them, or both refuse: over a field
that neither takes, or over one that only the first and one that only the second takes. -/
def Against.Compatible {fields : Fields α} {shape : Shape} (against : fields.Against shape)
    (get : String → Option (Json Number)) : Prop :=
  against.refused get = true ∨ (against.extra get = true ∧ against.missing get = true) ∨
    (against.extra get = false ∧ against.missing get = false ∧ fields.Exact get)

theorem Against.compatible_iff {fields : Fields α} {shape : Shape} (against : fields.Against shape)
    (get : String → Option (Json Number)) :
    against.Compatible get ↔
      fields.reads get = shape.accepts (fun name => (get name).map Json.nearest) ∧
        (fields.reads get = true → fields.Exact get) := by
  rw [Compatible, against.reads_eq, against.accepts_eq]
  cases against.refused get <;> cases against.extra get <;> cases against.missing get <;> simp

end Fields

def Codec.recordAgainst {fields : Fields α} {shape : Shape} (against : fields.Against shape)
    (unique : shape.names.Nodup) : (Codec.record fields).Against (.object shape) where
  extra
    | some (.object entries) => against.extra (lookup entries)
    | json => (Codec.record fields).reads json
  missing
    | some (.object entries) => against.missing (lookup entries)
    | _ => false
  refused
    | some (.object entries) => against.refused (lookup entries)
    | json => !(Codec.record fields).reads json
  reads_eq json := by
    rcases json with _ | json
    · rfl
    · cases json with
      | object entries => exact against.reads_eq _
      | _ => simp
  accepts_eq json := by
    rcases json with _ | json
    · rfl
    · cases json with
      | object entries =>
        simp only [Option.map_some, Json.nearest, Json.map_object, Schema.object]
        rw [← against.accepts_eq]
        exact congrArg shape.accepts (funext fun name => lookup_map _ entries name)
      | _ => simp [Schema.object, Json.nearest]
  agrees := .record against.agree unique

/-- A variant beside the schema of its name, which has the tag before its other fields. -/
structure Pairing (tag : String) (μ : Type) where
  variant : Variant μ
  shape : Shape
  against : variant.fields.Against shape
  fresh : tag ∉ variant.fields.names
  unique : (tag :: shape.names).Nodup

namespace Pairing

variable {tag : String}

@[grind =] def option (pairing : Pairing tag μ) : String × Shape :=
  (pairing.variant.name, .cons tag (.literal pairing.variant.name) pairing.shape)

@[grind =] def named (pairings : List (Pairing tag μ)) (name : String) : Option (Pairing tag μ) :=
  pairings.find? fun pairing => pairing.variant.name = name

def chosen (pairings : List (Pairing tag μ)) (entries : List (String × Json Number)) :
    Option (Pairing tag μ) :=
  (lookup entries tag).bind fun
    | .string name => named pairings name
    | _ => none

theorem tables (pairings : List (Pairing tag μ))
    (distinct : (pairings.map fun pairing => pairing.variant.name).Nodup) :
    Variant.Match tag (pairings.map variant) (pairings.map option) where
  agree := by
    rw [List.forall₂_map_left_iff, List.forall₂_map_right_iff, List.forall₂_same]
    exact fun pairing _ => ⟨rfl, ⟨_, rfl, pairing.against.agree⟩, pairing.fresh, pairing.unique⟩
  distinct := by rwa [List.map_map]

theorem named_variant (pairings : List (Pairing tag μ)) (name : String) :
    Variant.named (pairings.map variant) name = (named pairings name).map variant := by
  rw [Variant.named, List.find?_map]
  rfl

theorem name_of_named {pairings : List (Pairing tag μ)} {name : String} {pairing : Pairing tag μ}
    (found : named pairings name = some pairing) : pairing.variant.name = name := by
  simpa using List.find?_some found

theorem named_of_mem {pairings : List (Pairing tag μ)}
    (distinct : (pairings.map fun pairing => pairing.variant.name).Nodup) {pairing : Pairing tag μ}
    (member : pairing ∈ pairings) : named pairings pairing.variant.name = some pairing := by
  cases found : named pairings pairing.variant.name with
  | none => exact absurd (List.find?_eq_none.mp found pairing member) (by simp)
  | some other =>
    rw [List.inj_on_of_nodup_map distinct (List.mem_of_find?_eq_some found) member
      (name_of_named found)]

theorem lookup_option (pairings : List (Pairing tag μ)) (name : String) :
    lookup (pairings.map option) name = (named pairings name).map fun pairing =>
      pairing.option.2 := by
  induction pairings with
  | nil => rfl
  | cons pairing rest ih =>
    rw [List.map_cons, lookup, named, List.find?_cons]
    by_cases same : pairing.variant.name = name
    · simp [option, same]
    · simp only [option, same, if_false, decide_false]
      exact ih

theorem accepts_option (pairing : Pairing tag μ) {entries : List (String × Json Number)}
    (tagged : lookup entries tag = some (.string pairing.variant.name)) :
    pairing.option.2.accepts (fun name => (lookup entries name).map Json.nearest) =
      (!pairing.against.extra (lookup entries) && !pairing.against.refused (lookup entries)) := by
  rw [← pairing.against.accepts_eq]
  simp [option, Shape.cons, tagged, Schema.literal, Schema.enum, Json.nearest]

end Pairing

def Codec.taggedAgainst {tag : String} (pairings : List (Pairing tag μ))
    (distinct : (pairings.map fun pairing => pairing.variant.name).Nodup)
    (entry : μ → String × List (String × Option (Json Number))) :
    (Codec.tagged tag (pairings.map Pairing.variant) entry).Against
      (.discriminatedUnion tag (pairings.map Pairing.option)) where
  extra
    | some (.object entries) =>
      match Pairing.chosen pairings entries with
      | some pairing => pairing.against.extra (lookup entries)
      | none =>
        (Codec.tagged tag (pairings.map Pairing.variant) entry).reads (some (.object entries))
    | json => (Codec.tagged tag (pairings.map Pairing.variant) entry).reads json
  missing
    | some (.object entries) =>
      match Pairing.chosen pairings entries with
      | some pairing => pairing.against.missing (lookup entries)
      | none => false
    | _ => false
  refused
    | some (.object entries) =>
      match Pairing.chosen pairings entries with
      | some pairing => pairing.against.refused (lookup entries)
      | none =>
        !(Codec.tagged tag (pairings.map Pairing.variant) entry).reads (some (.object entries))
    | json => !(Codec.tagged tag (pairings.map Pairing.variant) entry).reads json
  reads_eq json := by
    rcases json with _ | json
    · rfl
    · cases json with
      | object entries =>
        simp only
        cases found : Pairing.chosen pairings entries with
        | none => simp
        | some pairing =>
          obtain ⟨value, tagged, found⟩ := Option.bind_eq_some_iff.mp found
          cases value with
          | string name =>
            simp only [← pairing.against.reads_eq]
            simp only [Codec.tagged, tagged, Option.bind_some, Variant.tagged,
              Pairing.named_variant]
            rw [show Pairing.named pairings name = some pairing from found]
            rfl
          | _ => cases found
      | _ => simp
  accepts_eq json := by
    rcases json with _ | json
    · rfl
    · cases json with
      | object entries =>
        simp only [Option.map_some, Json.nearest, Json.map_object, Schema.discriminatedUnion,
          lookup_map]
        cases found : Pairing.chosen pairings entries with
        | none =>
          have unknown : ((lookup entries tag).map Json.nearest).bind
              (Schema.option (pairings.map Pairing.option)) = none := by
            unfold Pairing.chosen at found
            cases tagged : lookup entries tag with
            | none => rfl
            | some value =>
              rw [tagged] at found
              cases value with
              | string name =>
                have absent : Pairing.named pairings name = none := found
                simp [Json.nearest, Schema.option, Pairing.lookup_option, absent]
              | _ => simp [Json.nearest, Schema.option]
          rw [show Json.map Number.nearest = Json.nearest from rfl, unknown]
          simp
        | some pairing =>
          obtain ⟨value, tagged, found⟩ := Option.bind_eq_some_iff.mp found
          cases value with
          | string name =>
            have named : Pairing.named pairings name = some pairing := found
            have same : pairing.variant.name = name := Pairing.name_of_named named
            subst same
            rw [← pairing.accepts_option tagged]
            have reading : (fun name => (lookup entries name).map Json.nearest) =
                lookup (entries.map fun field => (field.1, Json.map Number.nearest field.2)) :=
              funext fun name => (lookup_map _ entries name).symm
            simp [tagged, Schema.option, Pairing.lookup_option, named, reading]
          | _ => cases found
      | _ => simp [Schema.discriminatedUnion, Json.nearest]
  agrees := (Pairing.tables pairings distinct).agrees entry

end

end Tomb.Lib
