import Tomb.Lib.Serde

/-! Records of named fields and internally tagged enums, as serde derives their readers. -/
namespace Tomb.Lib

/-- Named fields in order of declaration. A record is written as an object and read from an object
or, when it is nested in an enum, from the array of its values. -/
structure Fields (α : Type) where
  names : List String
  encode : α → List (String × Option (Json Number))
  decode : (String → Option (Json Number)) → Option α
  decodeSeq : List (Json Number) → Option α
  reads : (String → Option (Json Number)) → Bool
  readsSeq : List (Json Number) → Bool
  Means : α → (String → Option (Json ℚ)) → Prop
  Exact : (String → Option (Json Number)) → Prop
  encode_names : ∀ value, (encode value).map Prod.fst = names
  decode_congr : ∀ get get', (∀ name ∈ names, get name = get' name) → decode get = decode get'
  means_congr : ∀ value get get', (∀ name ∈ names, get name = get' name) →
    (Means value get ↔ Means value get')
  decode_isSome : ∀ get, (decode get).isSome = reads get
  decodeSeq_isSome : ∀ items, (decodeSeq items).isSome = readsSeq items

namespace Fields

variable {α β : Type}

def nil : Fields Unit where
  names := []
  encode _ := []
  decode _ := some ()
  decodeSeq
    | [] => some ()
    | _ :: _ => none
  reads _ := true
  readsSeq items := items.isEmpty
  Means _ _ := True
  Exact _ := True
  encode_names _ := rfl
  decode_congr _ _ _ := rfl
  means_congr _ _ _ _ := Iff.rfl
  decode_isSome _ := rfl
  decodeSeq_isSome items := by cases items <;> rfl

def cons (name : String) (codec : Codec α) (rest : Fields β) : Fields (α × β) where
  names := name :: rest.names
  encode value := (name, codec.encode value.1) :: rest.encode value.2
  decode get := (codec.decode (get name)).bind fun first => (rest.decode get).map (Prod.mk first)
  decodeSeq
    | [] => none
    | item :: items =>
      (codec.decode (some item)).bind fun first => (rest.decodeSeq items).map (Prod.mk first)
  reads get := codec.reads (get name) && rest.reads get
  readsSeq
    | [] => false
    | item :: items => codec.reads (some item) && rest.readsSeq items
  Means value get := codec.Means value.1 (get name) ∧ rest.Means value.2 get
  Exact get := codec.Exact (get name) ∧ rest.Exact get
  encode_names value := by rw [List.map_cons, rest.encode_names]
  decode_congr get get' same := by
    rw [same name List.mem_cons_self,
      rest.decode_congr get get' fun other member => same other (List.mem_cons_of_mem _ member)]
  means_congr value get get' same := by
    rw [same name List.mem_cons_self, rest.means_congr value.2 get get' fun other member =>
      same other (List.mem_cons_of_mem _ member)]
  decode_isSome get := by
    rw [← codec.decode_isSome, ← rest.decode_isSome]
    cases codec.decode (get name) <;> simp
  decodeSeq_isSome items := by
    cases items with
    | nil => rfl
    | cons item items =>
      simp only
      rw [← codec.decode_isSome, ← rest.decodeSeq_isSome]
      cases codec.decode (some item) <;> simp

end Fields

def Codec.record {α : Type} (fields : Fields α) : Codec α where
  encode value := some (.object (present (fields.encode value)))
  decode
    | some (.object entries) => fields.decode (lookup entries)
    | some (.array items) => fields.decodeSeq items
    | _ => none
  reads
    | some (.object entries) => fields.reads (lookup entries)
    | some (.array items) => fields.readsSeq items
    | _ => false
  Means value other := ∃ entries, other = some (.object entries) ∧
    fields.Means value (lookup entries)
  Exact
    | some (.object entries) => fields.Exact (lookup entries)
    | _ => True
  decode_isSome value := by
    split
    · exact fields.decode_isSome _
    · exact fields.decodeSeq_isSome _
    · simp_all

/-- One variant of an enum: its name, its fields and how it is made of them. -/
structure Variant (μ : Type) where
  name : String
  Payload : Type
  fields : Fields Payload
  make : Payload → μ
  make_injective : Function.Injective make

namespace Variant

variable {μ : Type}

def decode (variant : Variant μ) (get : String → Option (Json Number)) : Option μ :=
  (variant.fields.decode get).map variant.make

def decodeSeq (variant : Variant μ) (items : List (Json Number)) : Option μ :=
  (variant.fields.decodeSeq items).map variant.make

@[grind =] def written (variant : Variant μ) (payload : variant.Payload) :
    String × List (String × Option (Json Number)) :=
  (variant.name, variant.fields.encode payload)

@[grind =] def named (variants : List (Variant μ)) (name : String) : Option (Variant μ) :=
  variants.find? fun variant => variant.name = name

/-- The variant that a tag's value stands for: its name, or its place among the variants. -/
def tagged (variants : List (Variant μ)) : Json Number → Option (Variant μ)
  | .string name => named variants name
  | .number (.int place _) => if place < 0 then none else variants[place.toNat]?
  | _ => none

/-- The object, as a reader of doubles has it, stands for the value. -/
def Denotes (tag : String) (variants : List (Variant μ)) (value : μ)
    (entries : List (String × Json ℚ)) : Prop :=
  ∃ variant ∈ variants, lookup entries tag = some (.string variant.name) ∧
    ∃ payload, value = variant.make payload ∧ variant.fields.Means payload (lookup entries)

end Variant

/-- A nested enum that carries its variant in a field of the object, or first in an array. `entry`
is the variant's name and the fields of a value. -/
def Codec.tagged {μ : Type} (tag : String) (variants : List (Variant μ))
    (entry : μ → String × List (String × Option (Json Number))) : Codec μ where
  encode value := some (.object ((tag, .string (entry value).1) :: present (entry value).2))
  decode
    | some (.object entries) =>
      ((lookup entries tag).bind (Variant.tagged variants)).bind fun variant =>
        variant.decode (lookup entries)
    | some (.array (first :: items)) =>
      (Variant.tagged variants first).bind fun variant => variant.decodeSeq items
    | _ => none
  reads
    | some (.object entries) =>
      ((lookup entries tag).bind (Variant.tagged variants)).any fun variant =>
        variant.fields.reads (lookup entries)
    | some (.array (first :: items)) =>
      (Variant.tagged variants first).any fun variant => variant.fields.readsSeq items
    | _ => false
  Means value other := ∃ entries, other = some (.object entries) ∧
    Variant.Denotes tag variants value entries
  Exact
    | some (.object entries) => ∀ variant ∈ variants,
        lookup entries tag = some (.string variant.name) → variant.fields.Exact (lookup entries)
    | _ => True
  decode_isSome value := by
    split
    · rename_i entries
      cases (lookup entries tag).bind (Variant.tagged variants) with
      | none => rfl
      | some variant => simp [Variant.decode, variant.fields.decode_isSome]
    · rename_i first items
      cases Variant.tagged variants first with
      | none => rfl
      | some variant => simp [Variant.decodeSeq, variant.fields.decodeSeq_isSome]
    · simp_all

theorem Variant.mem_of_tagged {μ : Type} {variants : List (Variant μ)} {tag : Json Number}
    {variant : Variant μ} (found : Variant.tagged variants tag = some variant) :
    variant ∈ variants := by
  unfold Variant.tagged at found
  split at found
  · exact List.mem_of_find?_eq_some found
  · split at found
    · cases found
    · exact List.mem_of_getElem? found
  · cases found

theorem Variant.name_of_named {μ : Type} {variants : List (Variant μ)} {name : String}
    {variant : Variant μ} (found : Variant.named variants name = some variant) :
    variant.name = name := by
  simpa using List.find?_some found

theorem Variant.named_of_mem {μ : Type} {variants : List (Variant μ)}
    (distinct : (variants.map Variant.name).Nodup) {variant : Variant μ}
    (member : variant ∈ variants) : Variant.named variants variant.name = some variant := by
  cases found : Variant.named variants variant.name with
  | none => exact absurd (List.find?_eq_none.mp found variant member) (by simp)
  | some other =>
    rw [List.inj_on_of_nodup_map distinct (List.mem_of_find?_eq_some found) member
      (Variant.name_of_named found)]

/-! Reading back what was written and carried as text. -/

section Faithful

variable (f : ℚ → ℚ) {α β μ : Type}

/-- Written, carried and read, the value is the same again. -/
@[grind =] def Codec.Faithful (codec : Codec α) (value : α) : Prop :=
  codec.decode ((codec.encode value).map (carry f)) = some value

def Codec.Solid (codec : Codec α) : Prop :=
  ∀ value, ∃ json, codec.encode value = some json ∧ json ≠ .null

theorem Codec.u8_faithful (value : UInt8) : Codec.u8.Faithful f value := by
  have below := value.toNat_lt
  simp only [Codec.Faithful, Codec.u8, Option.map_some, carry_number, Number.reread]
  rw [if_pos (by omega)]
  simp

theorem Codec.i64_faithful (value : Int64) : Codec.i64.Faithful f value := by
  simp only [Codec.Faithful, Codec.i64, Option.map_some, carry_number, Number.reread]
  rw [if_pos value.toInt_lt, Int64.ofInt_toInt]

theorem Codec.bool_faithful (value : Bool) : Codec.bool.Faithful f value := by
  simp [Codec.Faithful, Codec.bool]

@[simp] theorem Codec.string_faithful (value : String) : Codec.string.Faithful f value := by
  simp [Codec.Faithful, Codec.string]

theorem Codec.unitEnum_faithful (name : α → String) (parse : String → Option α)
    (inverse : ∀ value, parse (name value) = some value) (value : α) :
    (Codec.unitEnum name parse).Faithful f value := by
  simp [Codec.Faithful, Codec.unitEnum, inverse]

variable {codec : Codec α}

theorem Codec.optional_faithful (solid : codec.Solid)
    (faithful : ∀ value, codec.Faithful f value) (value : Option α) :
    codec.optional.Faithful f value := by
  cases value with
  | none => rfl
  | some value =>
    obtain ⟨json, written, differs⟩ := solid value
    have read := faithful value
    simp only [Codec.Faithful, written, Option.map_some] at read
    simp only [Codec.Faithful, Codec.optional, Option.bind_some, written, Option.map_some]
    split
    · rename_i absent; cases absent
    · rename_i null
      exact absurd ((carry_eq_null f json).mp (Option.some.inj null)) differs
    · rw [read]
      rfl

@[simp] theorem Codec.optional_value_faithful_iff (value : Option (Json Number)) :
    Codec.value.optional.Faithful f value ↔
      ∀ json ∈ value, json ≠ .null ∧ carry f json = json := by
  cases value with
  | none => simp [Codec.Faithful, Codec.optional]
  | some json =>
    simp only [Option.mem_some_iff, forall_eq']
    by_cases null : json = .null
    · simp [Codec.Faithful, Codec.optional, Codec.value, null]
    · simp only [Codec.Faithful, Codec.optional, Codec.value, Option.bind_some, Option.map_some,
        ne_eq, null, not_false_eq_true, true_and]
      split
      · rename_i absent; cases absent
      · rename_i read
        exact absurd ((carry_eq_null f json).mp (Option.some.inj read)) null
      · simp

theorem Codec.defaulted_faithful (solid : codec.Solid) (fallback : α)
    (faithful : ∀ value, codec.Faithful f value) (value : α) :
    (codec.defaulted fallback).Faithful f value := by
  obtain ⟨json, written, -⟩ := solid value
  have read := faithful value
  simp only [Codec.Faithful, written, Option.map_some] at read
  simpa only [Codec.Faithful, Codec.defaulted, written, Option.map_some] using read

theorem Codec.vec_faithful (solid : codec.Solid)
    (faithful : ∀ value, codec.Faithful f value) (values : List α) :
    codec.vec.Faithful f values := by
  have items (values : List α) : codec.decodeItems
      (values.map fun value => carry f ((codec.encode value).getD .null)) = some values := by
    induction values with
    | nil => rfl
    | cons value rest ih =>
      obtain ⟨json, written, -⟩ := solid value
      have read := faithful value
      simp only [Codec.Faithful, written, Option.map_some] at read
      simp only [List.map_cons, Codec.decodeItems, written, Option.getD_some, read,
        Option.bind_some, ih, Option.map_some]
  cases values with
  | nil => rfl
  | cons value rest =>
    simp only [Codec.Faithful, Codec.vec, Option.map_some, carry_array, List.map_map]
    exact items (value :: rest)

theorem Codec.iso_faithful {pack : α → β} {unpack : β → α}
    (inverse : ∀ value, pack (unpack value) = value)
    (faithful : ∀ value, codec.Faithful f value) (value : β) :
    (codec.iso pack unpack).Faithful f value := by
  have read := faithful (unpack value)
  rw [Codec.Faithful] at read
  simp only [Codec.Faithful, Codec.iso, read, Option.map_some, inverse]

theorem Codec.iso_solid (solid : codec.Solid) (pack : α → β) (unpack : β → α) :
    (codec.iso pack unpack).Solid := fun value => solid (unpack value)

/-- Written, carried and read as the fields of an object, the values are the same again. -/
@[grind =] def Fields.Faithful (fields : Fields α) (value : α) : Prop :=
  fields.decode (fun name => (lookup (fields.encode value) name).join.map (carry f)) = some value

@[simp] theorem Fields.nil_faithful (value : Unit) : Fields.nil.Faithful f value := rfl

theorem Fields.cons_faithful_iff {name : String} {rest : Fields β}
    (fresh : name ∉ rest.names) (value : α × β) : (Fields.cons name codec rest).Faithful f value ↔
      codec.Faithful f value.1 ∧ rest.Faithful f value.2 := by
  have head : (lookup ((name, codec.encode value.1) :: rest.encode value.2) name).join =
      codec.encode value.1 := by
    rw [lookup, if_pos rfl]
    rfl
  have tail : rest.decode (fun key =>
      (lookup ((name, codec.encode value.1) :: rest.encode value.2) key).join.map (carry f)) =
      rest.decode fun key => (lookup (rest.encode value.2) key).join.map (carry f) := by
    refine rest.decode_congr _ _ fun key member => ?_
    rw [lookup, if_neg]
    rintro rfl
    exact fresh member
  unfold Fields.Faithful Codec.Faithful
  simp only [Fields.cons, head, tail]
  cases codec.decode ((codec.encode value.1).map (carry f)) with
  | none => simp
  | some first =>
    cases rest.decode fun key => (lookup (rest.encode value.2) key).join.map (carry f) with
    | none => simp
    | some others => simp [Prod.ext_iff]

theorem Fields.lookup_carried (fields : Fields α) (unique : fields.names.Nodup) (value : α)
    (name : String) :
    lookup (collect ((present (fields.encode value)).map fun field => (field.1, carry f field.2)))
      name = (lookup (fields.encode value) name).join.map (carry f) := by
  have names : ((fields.encode value).map Prod.fst).Nodup := by rwa [fields.encode_names]
  rw [lookup_collect, lookup_map, lookup_present names]
  rw [List.map_map]
  exact names.sublist (present_names_sublist _)

theorem Codec.record_faithful_iff {fields : Fields α} (unique : fields.names.Nodup) (value : α) :
    (Codec.record fields).Faithful f value ↔ fields.Faithful f value := by
  unfold Codec.Faithful Fields.Faithful
  simp only [Codec.record, Option.map_some, carry_object]
  rw [fields.decode_congr _ _ fun name _ => fields.lookup_carried f unique value name]

theorem Codec.record_solid (fields : Fields α) : (Codec.record fields).Solid :=
  fun _ => ⟨_, rfl, by simp⟩

theorem Variant.lookup_carried (variant : Variant μ) {tag : String}
    (fresh : tag ∉ variant.fields.names) (unique : variant.fields.names.Nodup)
    (payload : variant.Payload) (name : String) :
    lookup (collect (((tag, .string variant.name) ::
      present (variant.fields.encode payload)).map fun field => (field.1, carry f field.2))) name =
      if tag = name then some (.string variant.name)
      else (lookup (variant.fields.encode payload) name).join.map (carry f) := by
  have names : ((variant.fields.encode payload).map Prod.fst).Nodup := by
    rwa [variant.fields.encode_names]
  have sublist := present_names_sublist (variant.fields.encode payload)
  rw [lookup_collect]
  · simp only [List.map_cons, carry_string, lookup]
    split
    · rfl
    · rw [lookup_map, lookup_present names]
  · rw [List.map_map, Function.comp_def, List.map_cons]
    refine List.nodup_cons.mpr ⟨fun member => fresh ?_, names.sublist sublist⟩
    rw [← variant.fields.encode_names payload]
    exact sublist.subset member

theorem Variant.decode_carried_iff (variant : Variant μ) {tag : String}
    (fresh : tag ∉ variant.fields.names) (unique : variant.fields.names.Nodup)
    (payload : variant.Payload) :
    variant.decode (lookup (collect (((tag, .string variant.name) ::
      present (variant.fields.encode payload)).map fun field => (field.1, carry f field.2)))) =
      some (variant.make payload) ↔ variant.fields.Faithful f payload := by
  have same : variant.fields.decode (lookup (collect (((tag, .string variant.name) ::
      present (variant.fields.encode payload)).map fun field => (field.1, carry f field.2)))) =
      variant.fields.decode fun name =>
        (lookup (variant.fields.encode payload) name).join.map (carry f) := by
    refine variant.fields.decode_congr _ _ fun name member => ?_
    rw [variant.lookup_carried f fresh unique payload name, if_neg]
    rintro rfl
    exact fresh member
  rw [Variant.decode, same, Option.map_eq_some_iff, Fields.Faithful]
  constructor
  · rintro ⟨other, read, made⟩
    rw [read, variant.make_injective made]
  · exact fun read => ⟨payload, read, rfl⟩

theorem Codec.tagged_faithful {tag : String} {variants : List (Variant μ)}
    {entry : μ → String × List (String × Option (Json Number))} (variant : Variant μ)
    (found : Variant.named variants variant.name = some variant)
    (fresh : tag ∉ variant.fields.names) (unique : variant.fields.names.Nodup)
    (payload : variant.Payload) (wrote : entry (variant.make payload) =
      (variant.name, variant.fields.encode payload))
    (faithful : variant.fields.Faithful f payload) :
    (Codec.tagged tag variants entry).Faithful f (variant.make payload) := by
  unfold Codec.Faithful
  simp only [Codec.tagged, wrote, Option.map_some, carry_object]
  rw [variant.lookup_carried f fresh unique payload tag, if_pos rfl, Option.bind_some,
    Variant.tagged, found, Option.bind_some]
  exact (variant.decode_carried_iff f fresh unique payload).mpr faithful

theorem Codec.string_solid : Codec.string.Solid := fun _ => ⟨_, rfl, by simp⟩

theorem Codec.u8_solid : Codec.u8.Solid := fun _ => ⟨_, rfl, by simp⟩

theorem Codec.i64_solid : Codec.i64.Solid := fun _ => ⟨_, rfl, by simp⟩

theorem Codec.bool_solid : Codec.bool.Solid := fun _ => ⟨_, rfl, by simp⟩

theorem Codec.unitEnum_solid (name : α → String) (parse : String → Option α) :
    (Codec.unitEnum name parse).Solid := fun _ => ⟨_, rfl, by simp⟩

end Faithful

end Tomb.Lib
