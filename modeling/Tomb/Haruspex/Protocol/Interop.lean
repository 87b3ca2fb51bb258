import Tomb.Haruspex.Protocol.Schemas
import Tomb.Haruspex.Protocol.Wire
import Tomb.Lib.Agreement

/-! The two readers of the friend protocol beside each other: what only one of them takes, and when
they take the same message from the same json. -/
namespace Tomb.Haruspex.Protocol
open Tomb.Lib

theorem wireVersion_wide (n : Int) (least : 0 ≤ n) (most : n < 256) :
    (Schema.isSafeInteger n && decide (0 ≤ (n : ℚ))) = true := by
  have small : n.natAbs < 2 ^ 53 := by omega
  have whole : (n : ℚ).isInt = true := by simp [Rat.isInt]
  rw [Schema.isSafeInteger, whole, Rat.num_intCast, decide_eq_true small]
  simpa using least

def versionAgainst : version.Against wireVersion :=
  (Codec.u8Against wireVersion_wide).defaulted (by simp [Codec.u8])

def roleAgainst : role.Against wireRoleSchema :=
  Codec.unitEnumAgainst
    (fun variant value parsed => by
      unfold Role.parse at parsed; split at parsed <;> cases parsed <;> rfl)
    (fun variant => by unfold Role.parse; split <;> simp_all)

def knockStatusAgainst : knockStatus.Against wireKnockStatusSchema :=
  Codec.unitEnumAgainst
    (fun variant value parsed => by
      unfold KnockStatus.parse at parsed; split at parsed <;> cases parsed <;> rfl)
    (fun variant => by unfold KnockStatus.parse; split <;> simp_all)

def browseCapabilityAgainst : browseCapability.Against browseCapabilitySchema :=
  Codec.unitEnumAgainst
    (fun variant value parsed => by
      unfold BrowseCapability.parse at parsed; split at parsed <;> cases parsed <;> rfl)
    (fun variant => by unfold BrowseCapability.parse; split <;> simp_all)

def capabilitiesAgainst : capabilities.Against capabilitiesSchema :=
  (Codec.recordAgainst (.cons browseCapabilityAgainst Fields.nilAgainst) (by decide)).iso
    fun _ => rfl

def scopePairings : List (Pairing "kind" WireKnockScope) :=
  [⟨WireKnockScope.accountVariant, _,
      .cons (Codec.stringAgainst.optional rfl) Fields.nilAgainst, by decide, by decide⟩,
    ⟨WireKnockScope.browseVariant, _, Fields.nilAgainst, by decide, by decide⟩,
    ⟨WireKnockScope.resourceVariant, _, .cons Codec.stringAgainst <|
      .cons (roleAgainst.optional rfl) Fields.nilAgainst, by decide, by decide⟩]

def scopeAgainst : WireKnockScope.codec.Against wireKnockScopeSchema :=
  Codec.taggedAgainst scopePairings (by decide) WireKnockScope.entry

def pendingKnockAgainst : pendingKnock.Against gossipDigestPendingKnockSchema :=
  (Codec.recordAgainst (.cons Codec.stringAgainst <| .cons Codec.stringAgainst <|
    .cons (Codec.stringAgainst.optional rfl) <| .cons Codec.stringAgainst <|
    .cons scopeAgainst <| .cons Codec.stringAgainst Fields.nilAgainst) (by decide)).iso
    fun _ => rfl

def profileEntryAgainst : profileEntry.Against gossipDigestProfileEntrySchema :=
  (Codec.recordAgainst (.cons Codec.stringAgainst <| .cons Codec.stringAgainst <|
    .cons Codec.stringAgainst Fields.nilAgainst) (by decide)).iso fun _ => rfl

def stringsAgainst : Codec.string.vec.Against (arrayOf .string) :=
  Codec.stringAgainst.vec Schema.string_defined

def pendingKnocksAgainst : pendingKnock.vec.Against (arrayOf gossipDigestPendingKnockSchema) :=
  pendingKnockAgainst.vec (Schema.object_defined _)

def profilesAgainst : profileEntry.vec.Against (arrayOf gossipDigestProfileEntrySchema) :=
  profileEntryAgainst.vec (Schema.object_defined _)

namespace CoreMessage

def pairings : List (Pairing "type" (CoreMessage (Json Number))) :=
  [⟨profileRequestVariant, _, .cons versionAgainst Fields.nilAgainst, by decide, by decide⟩,
    ⟨profileResponseVariant, _, .cons versionAgainst <| .cons Codec.stringAgainst <|
      .cons Codec.stringAgainst <| .cons Codec.stringAgainst <|
      .cons (Codec.i64Against.optional rfl) <| .cons (Codec.stringAgainst.optional rfl) <|
      .cons (Codec.stringAgainst.optional rfl) <|
      .cons (Codec.boolAgainst.optional rfl) Fields.nilAgainst, by decide, by decide⟩,
    ⟨friendRequestVariant, _, .cons versionAgainst <| .cons Codec.stringAgainst <|
      .cons Codec.stringAgainst <| .cons (Codec.stringAgainst.optional rfl) <|
      .cons (Codec.stringAgainst.optional rfl) <| .cons (Codec.i64Against.optional rfl) <|
      .cons (Codec.boolAgainst.optional rfl) Fields.nilAgainst, by decide, by decide⟩,
    ⟨friendAcceptVariant, _, .cons versionAgainst <| .cons Codec.stringAgainst <|
      .cons Codec.stringAgainst <| .cons (Codec.stringAgainst.optional rfl) <|
      .cons (Codec.stringAgainst.optional rfl) <| .cons (Codec.i64Against.optional rfl) <|
      .cons (Codec.boolAgainst.optional rfl) Fields.nilAgainst, by decide, by decide⟩,
    ⟨friendAcceptAckVariant, _, .cons versionAgainst <|
      .cons Codec.stringAgainst Fields.nilAgainst, by decide, by decide⟩,
    ⟨friendRejectVariant, _, .cons versionAgainst <| .cons Codec.stringAgainst Fields.nilAgainst,
      by decide, by decide⟩,
    ⟨heartbeatVariant, _, .cons versionAgainst <| .cons Codec.stringAgainst <|
      .cons Codec.stringAgainst <| .cons Codec.valueAgainst Fields.nilAgainst, by decide,
      by decide⟩,
    ⟨offlineAnnouncementVariant, _, .cons versionAgainst <|
      .cons Codec.stringAgainst Fields.nilAgainst, by decide, by decide⟩,
    ⟨helloVariant, _, .cons versionAgainst <| .cons Codec.stringAgainst <|
      .cons (Codec.stringAgainst.optional rfl) <| .cons (Codec.stringAgainst.optional rfl) <|
      .cons capabilitiesAgainst Fields.nilAgainst, by decide, by decide⟩,
    ⟨helloOkVariant, _, .cons versionAgainst <| .cons Codec.stringAgainst <|
      .cons (Codec.stringAgainst.optional rfl) <| .cons (Codec.stringAgainst.optional rfl) <|
      .cons capabilitiesAgainst Fields.nilAgainst, by decide, by decide⟩,
    ⟨knockRequestVariant, _, .cons versionAgainst <| .cons Codec.stringAgainst <|
      .cons Codec.stringAgainst <| .cons (Codec.stringAgainst.optional rfl) <|
      .cons Codec.stringAgainst <| .cons scopeAgainst Fields.nilAgainst, by decide, by decide⟩,
    ⟨knockAckVariant, _, .cons versionAgainst <| .cons Codec.stringAgainst <|
      .cons Codec.stringAgainst <| .cons (Codec.stringAgainst.optional rfl) Fields.nilAgainst,
      by decide, by decide⟩,
    ⟨knockOutcomeVariant, _, .cons versionAgainst <| .cons (Codec.stringAgainst.optional rfl) <|
      .cons knockStatusAgainst <| .cons (roleAgainst.optional rfl) <| .cons stringsAgainst <|
      .cons (Codec.stringAgainst.optional rfl) Fields.nilAgainst, by decide, by decide⟩,
    ⟨identityUpdateVariant, _, .cons versionAgainst <| .cons Codec.stringAgainst <|
      .cons (Codec.stringAgainst.optional rfl) <| .cons (Codec.stringAgainst.optional rfl) <|
      .cons (Codec.stringAgainst.optional rfl) <|
      .cons (Codec.i64Against.optional rfl) Fields.nilAgainst, by decide, by decide⟩,
    ⟨aclChangeVariant, _, .cons versionAgainst <| .cons Codec.stringAgainst <|
      .cons (Codec.stringAgainst.optional rfl) <| .cons Codec.stringAgainst <|
      .cons (roleAgainst.optional rfl) <| .cons Codec.stringAgainst <|
      .cons Codec.stringAgainst Fields.nilAgainst, by decide, by decide⟩,
    ⟨gossipDigestVariant, _, .cons versionAgainst <| .cons pendingKnocksAgainst <|
      .cons profilesAgainst <| .cons Codec.valueAgainst Fields.nilAgainst, by decide, by decide⟩,
    ⟨blobSeekVariant, _, .cons versionAgainst <| .cons stringsAgainst Fields.nilAgainst, by decide,
      by decide⟩,
    ⟨blobOfferVariant, _, .cons versionAgainst <| .cons stringsAgainst Fields.nilAgainst,
      by decide, by decide⟩,
    ⟨errorVariant, _, .cons versionAgainst <| .cons Codec.stringAgainst <|
      .cons Codec.stringAgainst Fields.nilAgainst, by decide, by decide⟩]

theorem pairings_variant : pairings.map Pairing.variant = variants := rfl

theorem pairings_option : pairings.map Pairing.option = coreMessageOptions := rfl

theorem pairings_distinct : (pairings.map fun pairing => pairing.variant.name).Nodup := by decide

theorem pairings_types :
    (pairings.map fun pairing => pairing.variant.name) = coreMessageTypes := rfl

end CoreMessage

/-- The same message on both sides: of one variant with the same values, where absent and `null` are
the same and an extension's payload is what was sent. -/
def FriendzMessage.Denotes : FriendzMessage (Json Number) → DecodedMessage → Prop
  | .core message, .core (.object entries) =>
    Variant.Denotes "type" CoreMessage.variants message entries
  | .appExtension messageType payload, .appExtension messageType' payload' =>
    messageType' = messageType ∧ payload' = payload.map Number.exact
  | _, _ => False

/-- Both readers refuse, or both accept and mean the same. -/
@[grind =]
def Agree : Option (FriendzMessage (Json Number)) → Except DecodeError DecodedMessage → Prop
  | none, .error _ => True
  | some message, .ok decoded => message.Denotes decoded
  | _, _ => False

/-- An extension holds no number that a double does not; a core message is one that both sides take
field by field, or has a field for each side to refuse. -/
def Compatible (value : Json Number) : Prop :=
  match value with
  | .object entries =>
    match lookup entries "type" with
    | some (.string typeStr) =>
      if ':' ∈ typeStr.toList then value.map Number.nearest = value.map Number.exact
      else ∀ pairing ∈ CoreMessage.pairings, pairing.variant.name = typeStr →
        pairing.against.Compatible (lookup entries)
    | _ => True
  | _ => True

variable {pairing : Pairing "type" (CoreMessage (Json Number))}
  {entries : List (String × Json Number)}

theorem decodeCoreMessage_eq (member : pairing ∈ CoreMessage.pairings)
    (tagged : lookup entries "type" = some (.string pairing.variant.name)) :
    decodeCoreMessage (Json.nearest (.object entries)) =
      match pairing.option.2.parse fun name => (lookup entries name).map Json.nearest with
      | some fields => .ok (.core (.object (present fields))) | none => .error .schema := by
  have named := Pairing.named_of_mem CoreMessage.pairings_distinct member
  have reading : (fun name => (lookup entries name).map Json.nearest) =
      lookup (entries.map fun field => (field.1, Json.map Number.nearest field.2)) :=
    funext fun name => (lookup_map _ entries name).symm
  rw [reading]
  simp only [decodeCoreMessage, coreMessageSchema, Schema.discriminatedUnion, Json.nearest,
    Json.map_object, lookup_map, tagged, Option.map_some, Json.map_string, Option.bind_some,
    Schema.option, ← CoreMessage.pairings_option, Pairing.lookup_option, named, Schema.object]
  cases pairing.option.2.parse
    (lookup (entries.map fun field => (field.1, Json.map Number.nearest field.2))) <;> rfl

theorem core_agree_iff (member : pairing ∈ CoreMessage.pairings)
    (tagged : lookup entries "type" = some (.string pairing.variant.name)) :
    Agree ((pairing.variant.decode (lookup entries)).map .core)
        (decodeCoreMessage (Json.nearest (.object entries))) ↔
      pairing.against.Compatible (lookup entries) := by
  have reads : pairing.variant.fields.reads (lookup entries) =
      (pairing.variant.decode (lookup entries)).isSome := by
    rw [Variant.decode, Option.isSome_map, pairing.variant.fields.decode_isSome]
  rw [pairing.against.compatible_iff, pairing.against.accepts_eq, ← pairing.accepts_option tagged,
    ← Shape.parse_isSome, reads, decodeCoreMessage_eq member tagged]
  cases read : pairing.variant.decode (lookup entries) with
  | none =>
    cases pairing.option.2.parse fun name => (lookup entries name).map Json.nearest with
    | none => simp [Agree]
    | some fields => simp [Agree]
  | some message =>
    cases parsed : pairing.option.2.parse fun name => (lookup entries name).map Json.nearest with
    | none => simp [Agree]
    | some fields =>
      have means := (Pairing.tables _ CoreMessage.pairings_distinct).denotes_iff
        (List.mem_map_of_mem member) ⟨rfl, ⟨_, rfl, pairing.against.agree⟩, pairing.fresh,
          pairing.unique⟩ read parsed
      simpa [Agree, FriendzMessage.Denotes, CoreMessage.pairings_variant] using means

/-! The two readers on an object that has a type. -/

section

variable {entries : List (String × Json Number)} {typeStr : String}

theorem deserialize_of_type (tagged : lookup entries "type" = some (.string typeStr))
    (plain : ':' ∉ typeStr.toList) :
    FriendzMessage.deserialize (.object entries) =
      ((Pairing.named CoreMessage.pairings typeStr).bind fun pairing =>
        pairing.variant.decode (lookup entries)).map .core := by
  simp only [FriendzMessage.deserialize, tagged]
  rw [if_neg plain, ← CoreMessage.pairings_variant, Pairing.named_variant, Option.bind_map]
  rfl

theorem decodeFriendzMessage_of_type (tagged : lookup entries "type" = some (.string typeStr)) :
    decodeFriendzMessage (Json.nearest (.object entries)) =
      if typeStr = "" then .error (.message "friendz message is missing a string 'type' field")
      else if isAppExtensionType typeStr then
        .ok (.appExtension typeStr (Json.nearest (.object entries)))
      else if isCoreMessageType typeStr then decodeCoreMessage (Json.nearest (.object entries))
      else .error (.message s!"unknown friendz message type \"{typeStr}\"") := by
  simp only [decodeFriendzMessage, Json.nearest, Json.map_object, lookup_map, tagged,
    Option.map_some, Json.map_string]

theorem extension_agree_iff (tagged : lookup entries "type" = some (.string typeStr))
    (colon : ':' ∈ typeStr.toList) :
    Agree (FriendzMessage.deserialize (.object entries))
        (decodeFriendzMessage (Json.nearest (.object entries))) ↔
      (Json.object entries).map Number.nearest = (Json.object entries).map Number.exact := by
  have extension : isAppExtensionType typeStr = true := by simpa [isAppExtensionType] using colon
  have named : typeStr ≠ "" := by
    rintro rfl
    simp at colon
  rw [decodeFriendzMessage_of_type tagged, if_neg named, extension, if_pos rfl]
  simp only [FriendzMessage.deserialize, tagged, if_pos colon]
  exact and_iff_right rfl

theorem isCoreMessageType_iff :
    isCoreMessageType typeStr = true ↔
      ∃ pairing ∈ CoreMessage.pairings, pairing.variant.name = typeStr := by
  rw [isCoreMessageType, List.contains_iff_mem, ← CoreMessage.pairings_types, List.mem_map]

theorem unknown_agree (tagged : lookup entries "type" = some (.string typeStr))
    (plain : ':' ∉ typeStr.toList)
    (unknown : ∀ pairing ∈ CoreMessage.pairings, pairing.variant.name ≠ typeStr) :
    Agree (FriendzMessage.deserialize (.object entries))
      (decodeFriendzMessage (Json.nearest (.object entries))) := by
  have extension : isAppExtensionType typeStr = false := by simpa [isAppExtensionType] using plain
  have core : ¬ isCoreMessageType typeStr = true := by
    rw [isCoreMessageType_iff]
    exact fun ⟨pairing, member, same⟩ => unknown pairing member same
  have none : Pairing.named CoreMessage.pairings typeStr = none := by
    simpa [Pairing.named] using unknown
  rw [deserialize_of_type tagged plain, none, decodeFriendzMessage_of_type tagged, extension,
    if_neg core]
  split <;> trivial

theorem known_agree_iff {pairing : Pairing "type" (CoreMessage (Json Number))}
    (member : pairing ∈ CoreMessage.pairings)
    (tagged : lookup entries "type" = some (.string pairing.variant.name))
    (plain : ':' ∉ pairing.variant.name.toList) :
    Agree (FriendzMessage.deserialize (.object entries))
        (decodeFriendzMessage (Json.nearest (.object entries))) ↔
      pairing.against.Compatible (lookup entries) := by
  have core : isCoreMessageType pairing.variant.name = true :=
    isCoreMessageType_iff.mpr ⟨pairing, member, rfl⟩
  have named : pairing.variant.name ≠ "" := by
    intro empty
    rw [empty] at core
    exact absurd core (by decide)
  have extension : isAppExtensionType pairing.variant.name = false := by
    simpa [isAppExtensionType] using plain
  rw [deserialize_of_type tagged plain, Pairing.named_of_mem CoreMessage.pairings_distinct member,
    Option.bind_some, decodeFriendzMessage_of_type tagged, if_neg named, extension, if_pos core]
  exact core_agree_iff member tagged

end

/-- The two readers agree on a json value exactly if it is compatible. -/
theorem decoders_agree_iff (value : Json Number) :
    Agree (FriendzMessage.deserialize value) (decodeFriendzMessage value.nearest) ↔
      Compatible value := by
  cases value with
  | object entries =>
    cases tagged : lookup entries "type" with
    | none =>
      simp [FriendzMessage.deserialize, decodeFriendzMessage, Compatible, Agree, lookup_map, tagged]
    | some tag =>
      cases tag with
      | string typeStr =>
        simp only [Compatible, tagged]
        by_cases colon : ':' ∈ typeStr.toList
        · rw [if_pos colon, extension_agree_iff tagged colon]
        · rw [if_neg colon]
          by_cases known : ∃ pairing ∈ CoreMessage.pairings, pairing.variant.name = typeStr
          · obtain ⟨pairing, member, rfl⟩ := known
            rw [known_agree_iff member tagged colon]
            refine ⟨fun held other others same => ?_, fun held => held pairing member rfl⟩
            rw [List.inj_on_of_nodup_map CoreMessage.pairings_distinct others member same]
            exact held
          · push Not at known
            exact iff_of_true (unknown_agree tagged colon known) fun pairing member same =>
              absurd same (known pairing member)
      | _ =>
        simp [FriendzMessage.deserialize, decodeFriendzMessage, Compatible, Agree, lookup_map,
          tagged]
  | _ => simp [FriendzMessage.deserialize, decodeFriendzMessage, Compatible, Agree]

/-- A present `null` for an optional field is read in rust and refused in javascript. -/
theorem null_resourceId_disagrees :
    let value : Json Number := .object [("type", .string "knock-ack"), ("knockId", .string "k"),
      ("ackerNodeId", .string "n"), ("resourceId", .null)]
    FriendzMessage.deserialize value = some (.core (.knockAck 1 "k" "n" none)) ∧
      decodeFriendzMessage value.nearest = .error .schema ∧
      ¬ Agree (FriendzMessage.deserialize value) (decodeFriendzMessage value.nearest) := by
  intro value
  have read : FriendzMessage.deserialize value = some (.core (.knockAck 1 "k" "n" none)) := rfl
  have refused : decodeFriendzMessage value.nearest = .error .schema := rfl
  rw [read, refused]
  exact ⟨rfl, rfl, id⟩

end Tomb.Haruspex.Protocol
