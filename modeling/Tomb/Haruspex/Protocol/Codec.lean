import Tomb.Haruspex.Protocol.Wire
import Tomb.Lib.Streaming

/-! The length-delimited json codec of the rust side. Writing json as text and reading text as json
is `serde_json`'s; everything else is here. -/
namespace Tomb.Haruspex.Protocol
open Tomb.Lib

/-- The text layer: `toVec` writes, `fromSlice` reads a value with sorted objects. -/
structure SerdeJson where
  toVec : Json Number → List UInt8
  fromSlice : List UInt8 → Option (Json Number)

def maxMessageSize : Nat := 16 * 1024 * 1024

inductive CodecError where
  | io
  | json
  | messageTooLarge (size max : Nat)
  | streamClosed

section

variable (text : SerdeJson)

def encodeMessage (message : FriendzMessage (Json Number)) : Except CodecError (List UInt8) :=
  let json := text.toVec message.serialize
  if maxMessageSize < json.length then .error (.messageTooLarge json.length maxMessageSize)
  else .ok (toBe32 json.length ++ json)

def writeMessage (message : FriendzMessage (Json Number)) (written : List UInt8) :
    Except CodecError Unit × List UInt8 :=
  let json := text.toVec message.serialize
  if maxMessageSize < json.length then
    (.error (.messageTooLarge json.length maxMessageSize), written)
  else (.ok (), (written ++ toBe32 json.length) ++ json)

def readExact (n : Nat) (stream : List UInt8) : Option (List UInt8 × List UInt8) :=
  if n ≤ stream.length then some (stream.take n, stream.drop n) else none

def readRawPayload (stream : List UInt8) : Except CodecError (List UInt8) × List UInt8 :=
  match readExact 4 stream with
  | none => (.error .streamClosed, [])
  | some (header, stream) =>
    if maxMessageSize < fromBe32 header then
      (.error (.messageTooLarge (fromBe32 header) maxMessageSize), stream)
    else match readExact (fromBe32 header) stream with
      | none => (.error .io, [])
      | some (payload, stream) => (.ok payload, stream)

def readMessage (stream : List UInt8) :
    Except CodecError (FriendzMessage (Json Number)) × List UInt8 :=
  match readRawPayload stream with
  | (.error error, stream) => (.error error, stream)
  | (.ok payload, stream) =>
    match (text.fromSlice payload).bind FriendzMessage.deserialize with
    | some message => (.ok message, stream)
    | none => (.error .json, stream)

def writeMessages : List (FriendzMessage (Json Number)) → List UInt8 →
    Except CodecError Unit × List UInt8
  | [], written => (.ok (), written)
  | message :: rest, written =>
    match writeMessage text message written with
    | (.error error, written) => (.error error, written)
    | (.ok (), written) => writeMessages rest written

/-- Reading the stream over and over yields these messages and then that it is closed. -/
def Yields : List (FriendzMessage (Json Number)) → List UInt8 → Prop
  | [], stream => (readMessage text stream).1 = .error .streamClosed
  | message :: rest, stream =>
    (readMessage text stream).1 = .ok message ∧ Yields rest (readMessage text stream).2

/-- What was written reads back as the same messages, and encoding makes the bytes that writing
does. -/
def RoundTrips (messages : List (FriendzMessage (Json Number))) : Prop :=
  (∃ bytes, writeMessages text messages [] = (.ok (), bytes) ∧ Yields text messages bytes) ∧
    ∀ message ∈ messages,
      (writeMessage text message []).1 = .ok () ∧
        encodeMessage text message = .ok (writeMessage text message []).2

end

namespace CoreMessage

def appPayload : CoreMessage (Json Number) → Option (Json Number)
  | .heartbeat _ _ _ appPayload => appPayload
  | .gossipDigest _ _ _ appPayload => appPayload
  | _ => none

end CoreMessage

/-- What a message carries for the app survives: it is not a present `null`, an extension's payload
is an object of its type, and every double in it reads back as itself. -/
def FriendzMessage.Survives (f : ℚ → ℚ) : FriendzMessage (Json Number) → Prop
  | .core message => ∀ payload ∈ message.appPayload, payload ≠ .null ∧ carry f payload = payload
  | .appExtension messageType payload => ':' ∈ messageType.toList ∧ carry f payload = payload ∧
      ∃ entries, payload = .object entries ∧ lookup entries "type" = some (.string messageType)

/-! The fields of every type read back. -/

section Faithful

variable (f : ℚ → ℚ)

@[simp] theorem role_faithful (value : Role) : role.Faithful f value :=
  Codec.unitEnum_faithful f _ _ (fun value => by cases value <;> rfl) value

theorem role_solid : role.Solid := Codec.unitEnum_solid _ _

@[simp] theorem knockStatus_faithful (value : KnockStatus) : knockStatus.Faithful f value :=
  Codec.unitEnum_faithful f _ _ (fun value => by cases value <;> rfl) value

@[simp] theorem version_faithful (value : UInt8) : version.Faithful f value :=
  Codec.defaulted_faithful f Codec.u8_solid 1 (Codec.u8_faithful f) value

@[simp] theorem optionalString_faithful (value : Option String) :
    Codec.string.optional.Faithful f value :=
  Codec.optional_faithful f Codec.string_solid (Codec.string_faithful f) value

@[simp] theorem optionalI64_faithful (value : Option Int64) : Codec.i64.optional.Faithful f value :=
  Codec.optional_faithful f Codec.i64_solid (Codec.i64_faithful f) value

@[simp] theorem optionalBool_faithful (value : Option Bool) : Codec.bool.optional.Faithful f value :=
  Codec.optional_faithful f Codec.bool_solid (Codec.bool_faithful f) value

@[simp] theorem optionalRole_faithful (value : Option Role) : role.optional.Faithful f value :=
  Codec.optional_faithful f role_solid (role_faithful f) value

@[simp] theorem strings_faithful (values : List String) : Codec.string.vec.Faithful f values :=
  Codec.vec_faithful f Codec.string_solid (Codec.string_faithful f) values

@[simp] theorem capabilities_faithful (value : Capabilities) : capabilities.Faithful f value := by
  refine Codec.iso_faithful f (fun _ => rfl) (fun value => ?_) value
  rw [Codec.record_faithful_iff f (by decide)]
  refine (Fields.cons_faithful_iff f (by decide) value).mpr ⟨?_, rfl⟩
  exact Codec.unitEnum_faithful f _ _ (fun value => by cases value <;> rfl) _

@[simp] theorem scope_faithful (value : WireKnockScope) : WireKnockScope.codec.Faithful f value := by
  cases value with
  | account requestedUsername =>
    refine Codec.tagged_faithful f WireKnockScope.accountVariant rfl (by decide) (by decide)
      (requestedUsername, ()) rfl ?_
    exact (Fields.cons_faithful_iff f (by decide) _).mpr ⟨optionalString_faithful f _, rfl⟩
  | browse =>
    exact Codec.tagged_faithful f WireKnockScope.browseVariant rfl (by decide) (by decide) () rfl
      rfl
  | resource resourceId requestedRole =>
    refine Codec.tagged_faithful f WireKnockScope.resourceVariant rfl (by decide) (by decide)
      (resourceId, requestedRole, ()) rfl ?_
    refine (Fields.cons_faithful_iff f (by decide) _).mpr ⟨Codec.string_faithful f _, ?_⟩
    exact (Fields.cons_faithful_iff f (by decide) _).mpr ⟨optionalRole_faithful f _, rfl⟩

theorem pendingKnock_faithful (value : GossipDigestPendingKnock) :
    pendingKnock.Faithful f value := by
  refine Codec.iso_faithful f (fun _ => rfl) (fun value => ?_) value
  rw [Codec.record_faithful_iff f (by decide), pendingKnockFields]
  simp (disch := decide) only [Fields.cons_faithful_iff, Codec.string_faithful,
    optionalString_faithful, scope_faithful, Fields.nil_faithful, and_self]

theorem profileEntry_faithful (value : GossipDigestProfileEntry) :
    profileEntry.Faithful f value := by
  refine Codec.iso_faithful f (fun _ => rfl) (fun value => ?_) value
  rw [Codec.record_faithful_iff f (by decide), profileEntryFields]
  simp (disch := decide) only [Fields.cons_faithful_iff, Codec.string_faithful,
    Fields.nil_faithful, and_self]

@[simp] theorem pendingKnocks_faithful (values : List GossipDigestPendingKnock) :
    pendingKnock.vec.Faithful f values :=
  Codec.vec_faithful f (Codec.iso_solid (Codec.record_solid _) _ _) (pendingKnock_faithful f) values

@[simp] theorem profiles_faithful (values : List GossipDigestProfileEntry) :
    profileEntry.vec.Faithful f values :=
  Codec.vec_faithful f (Codec.iso_solid (Codec.record_solid _) _ _) (profileEntry_faithful f) values

end Faithful

namespace CoreMessage

theorem written_by (f : ℚ → ℚ) (message : CoreMessage (Json Number)) :
    ∃ variant ∈ variants, ∃ payload, variant.make payload = message ∧
      entry message = variant.written payload ∧
      (variant.fields.Faithful f payload ↔
        ∀ value ∈ message.appPayload, value ≠ .null ∧ carry f value = value) := by
  cases message with
  | profileRequest v =>
    refine ⟨profileRequestVariant, by simp [variants], (v, ()), rfl, rfl, ?_⟩
    simp (disch := decide) [profileRequestVariant, Fields.cons_faithful_iff, appPayload]
  | profileResponse v username bio avatarDataUrl accentColor profileDocId profileUpdatedAt isHub =>
    refine ⟨profileResponseVariant, by simp [variants],
      (v, username, bio, avatarDataUrl, accentColor, profileDocId, profileUpdatedAt, isHub, ()), rfl,
      rfl, ?_⟩
    simp (disch := decide) [profileResponseVariant, Fields.cons_faithful_iff, appPayload]
  | friendRequest v fromNodeId fromUsername bio avatarDataUrl accentColor isHub =>
    refine ⟨friendRequestVariant, by simp [variants],
      (v, fromNodeId, fromUsername, bio, avatarDataUrl, accentColor, isHub, ()), rfl, rfl, ?_⟩
    simp (disch := decide) [friendRequestVariant, Fields.cons_faithful_iff, appPayload]
  | friendAccept v fromNodeId fromUsername bio avatarDataUrl accentColor isHub =>
    refine ⟨friendAcceptVariant, by simp [variants],
      (v, fromNodeId, fromUsername, bio, avatarDataUrl, accentColor, isHub, ()), rfl, rfl, ?_⟩
    simp (disch := decide) [friendAcceptVariant, Fields.cons_faithful_iff, appPayload]
  | friendAcceptAck v fromNodeId =>
    refine ⟨friendAcceptAckVariant, by simp [variants], (v, fromNodeId, ()), rfl, rfl, ?_⟩
    simp (disch := decide) [friendAcceptAckVariant, Fields.cons_faithful_iff, appPayload]
  | friendReject v fromNodeId =>
    refine ⟨friendRejectVariant, by simp [variants], (v, fromNodeId, ()), rfl, rfl, ?_⟩
    simp (disch := decide) [friendRejectVariant, Fields.cons_faithful_iff, appPayload]
  | heartbeat v nodeId username payload =>
    refine ⟨heartbeatVariant, by simp [variants], (v, nodeId, username, payload, ()), rfl, rfl, ?_⟩
    simp (disch := decide) [heartbeatVariant, Fields.cons_faithful_iff, appPayload]
  | offlineAnnouncement v nodeId =>
    refine ⟨offlineAnnouncementVariant, by simp [variants], (v, nodeId, ()), rfl, rfl, ?_⟩
    simp (disch := decide) [offlineAnnouncementVariant, Fields.cons_faithful_iff, appPayload]
  | hello v nodeId username avatarBlobId capabilities =>
    refine ⟨helloVariant, by simp [variants],
      (v, nodeId, username, avatarBlobId, capabilities, ()), rfl, rfl, ?_⟩
    simp (disch := decide) [helloVariant, Fields.cons_faithful_iff, appPayload]
  | helloOk v nodeId username avatarBlobId capabilities =>
    refine ⟨helloOkVariant, by simp [variants],
      (v, nodeId, username, avatarBlobId, capabilities, ()), rfl, rfl, ?_⟩
    simp (disch := decide) [helloOkVariant, Fields.cons_faithful_iff, appPayload]
  | knockRequest v knockId nodeId username message scope =>
    refine ⟨knockRequestVariant, by simp [variants],
      (v, knockId, nodeId, username, message, scope, ()), rfl, rfl, ?_⟩
    simp (disch := decide) [knockRequestVariant, Fields.cons_faithful_iff, appPayload]
  | knockAck v knockId ackerNodeId resourceId =>
    refine ⟨knockAckVariant, by simp [variants],
      (v, knockId, ackerNodeId, resourceId, ()), rfl, rfl, ?_⟩
    simp (disch := decide) [knockAckVariant, Fields.cons_faithful_iff, appPayload]
  | knockOutcome v knockId status grantedRole grantedResourceIds byNodeId =>
    refine ⟨knockOutcomeVariant, by simp [variants],
      (v, knockId, status, grantedRole, grantedResourceIds, byNodeId, ()), rfl, rfl, ?_⟩
    simp (disch := decide) [knockOutcomeVariant, Fields.cons_faithful_iff, appPayload]
  | identityUpdate v nodeId username avatarDataUrl bio accentColor =>
    refine ⟨identityUpdateVariant, by simp [variants],
      (v, nodeId, username, avatarDataUrl, bio, accentColor, ()), rfl, rfl, ?_⟩
    simp (disch := decide) [identityUpdateVariant, Fields.cons_faithful_iff, appPayload]
  | aclChange v resourceId resourceTitle targetNodeId newRole changedBy changedByUsername =>
    refine ⟨aclChangeVariant, by simp [variants],
      (v, resourceId, resourceTitle, targetNodeId, newRole, changedBy, changedByUsername, ()), rfl,
      rfl, ?_⟩
    simp (disch := decide) [aclChangeVariant, Fields.cons_faithful_iff, appPayload]
  | gossipDigest v pendingKnocks profiles payload =>
    refine ⟨gossipDigestVariant, by simp [variants],
      (v, pendingKnocks, profiles, payload, ()), rfl, rfl, ?_⟩
    simp (disch := decide) [gossipDigestVariant, Fields.cons_faithful_iff, appPayload]
  | blobSeek v needed =>
    refine ⟨blobSeekVariant, by simp [variants], (v, needed, ()), rfl, rfl, ?_⟩
    simp (disch := decide) [blobSeekVariant, Fields.cons_faithful_iff, appPayload]
  | blobOffer v available =>
    refine ⟨blobOfferVariant, by simp [variants], (v, available, ()), rfl, rfl, ?_⟩
    simp (disch := decide) [blobOfferVariant, Fields.cons_faithful_iff, appPayload]
  | error v code message =>
    refine ⟨errorVariant, by simp [variants], (v, code, message, ()), rfl, rfl, ?_⟩
    simp (disch := decide) [errorVariant, Fields.cons_faithful_iff, appPayload]

end CoreMessage

namespace FriendzMessage

theorem deserialize_eq_extension_iff (value payload : Json Number) (messageType : String) :
    deserialize value = some (.appExtension messageType payload) ↔
      ':' ∈ messageType.toList ∧ value = payload ∧
        ∃ entries, payload = .object entries ∧
          lookup entries "type" = some (.string messageType) := by
  constructor
  · intro read
    unfold deserialize at read
    split at read
    · rename_i entries
      split at read
      · rename_i typeStr found
        split at read
        · rename_i colon
          cases read
          exact ⟨colon, rfl, entries, rfl, found⟩
        · obtain ⟨message, -, made⟩ := Option.map_eq_some_iff.mp read
          cases made
      · cases read
    · cases read
  · rintro ⟨colon, rfl, entries, rfl, found⟩
    simp only [deserialize, found]
    rw [if_pos colon]

/-- A message is read back from its carried form exactly if what it carries for the app survives. -/
theorem deserialize_carried_iff (f : ℚ → ℚ) (message : FriendzMessage (Json Number)) :
    deserialize (carry f message.serialize) = some message ↔ message.Survives f := by
  cases message with
  | core message =>
    obtain ⟨variant, member, payload, rfl, wrote, faithful⟩ := CoreMessage.written_by f message
    obtain ⟨fresh, unique, plain⟩ := CoreMessage.variants_fresh variant member
    have tag := variant.lookup_carried f fresh unique payload "type"
    rw [if_pos rfl] at tag
    simp only [serialize, wrote, Variant.written, carry_object, deserialize, tag, Survives]
    rw [if_neg plain, Variant.named_of_mem CoreMessage.variants_distinct member, ← faithful,
      ← variant.decode_carried_iff f fresh unique payload]
    simp
  | appExtension messageType payload =>
    rw [serialize, deserialize_eq_extension_iff]
    rfl

end FriendzMessage

/-! Frames on a stream. -/

section

variable (text : SerdeJson)

theorem readMessage_frame {payload : List UInt8} (fits : payload.length ≤ maxMessageSize)
    (rest : List UInt8) :
    readMessage text (frame payload ++ rest) =
      match (text.fromSlice payload).bind FriendzMessage.deserialize with
      | some message => (.ok message, rest)
      | none => (.error .json, rest) := by
  have small : payload.length < 2 ^ 32 := lt_of_le_of_lt fits (by decide)
  have header : readExact 4 (frame payload ++ rest) =
      some (toBe32 payload.length, payload ++ rest) := by
    rw [readExact, if_pos (by simp [length_frame]; omega), frame, List.append_assoc]
    rfl
  have body : readExact payload.length (payload ++ rest) = some (payload, rest) := by
    rw [readExact, if_pos (by simp), List.take_left', List.drop_left'] <;> rfl
  have raw : readRawPayload (frame payload ++ rest) = (.ok payload, rest) := by
    simp only [readRawPayload, header, fromBe32_toBe32 small]
    rw [if_neg (Nat.not_lt.mpr fits)]
    simp only [body]
  rw [readMessage, raw]

variable {message : FriendzMessage (Json Number)}

theorem writeMessage_eq
    (fits : (text.toVec message.serialize).length ≤ maxMessageSize) (written : List UInt8) :
    writeMessage text message written =
      (.ok (), written ++ frame (text.toVec message.serialize)) := by
  rw [writeMessage, if_neg (Nat.not_lt.mpr fits), List.append_assoc]
  rfl

theorem encodeMessage_eq (fits : (text.toVec message.serialize).length ≤ maxMessageSize) :
    encodeMessage text message = .ok (frame (text.toVec message.serialize)) := by
  rw [encodeMessage, if_neg (Nat.not_lt.mpr fits)]
  rfl

variable {messages : List (FriendzMessage (Json Number))}

theorem writeMessages_eq
    (fits : ∀ message ∈ messages, (text.toVec message.serialize).length ≤ maxMessageSize)
    (written : List UInt8) : writeMessages text messages written =
      (.ok (), written ++ messages.flatMap fun message => frame (text.toVec message.serialize)) := by
  induction messages generalizing written with
  | nil => simp [writeMessages]
  | cons message rest ih =>
    obtain ⟨first, fits⟩ := List.forall_mem_cons.mp fits
    rw [writeMessages, writeMessage_eq text first]
    simp only
    rw [ih fits, List.flatMap_cons, List.append_assoc]

theorem yields_iff
    (fits : ∀ message ∈ messages, (text.toVec message.serialize).length ≤ maxMessageSize) :
    Yields text messages (messages.flatMap fun message => frame (text.toVec message.serialize)) ↔
      ∀ message ∈ messages, (text.fromSlice (text.toVec message.serialize)).bind
        FriendzMessage.deserialize = some message := by
  induction messages with
  | nil => exact iff_of_true rfl (by simp)
  | cons message rest ih =>
    obtain ⟨first, fits⟩ := List.forall_mem_cons.mp fits
    rw [Yields, List.flatMap_cons, readMessage_frame text first, List.forall_mem_cons, ← ih fits]
    cases (text.fromSlice (text.toVec message.serialize)).bind FriendzMessage.deserialize with
    | none => simp
    | some other => simp

/-- Writing messages that fit and reading them back yields them exactly if none nests deeper than
the reader goes and what each carries for the app survives. -/
theorem roundTrips_iff (text : SerdeJson) (reread : ℚ → ℚ)
    (messages : List (FriendzMessage (Json Number)))
    (fits : ∀ message ∈ messages, (text.toVec message.serialize).length ≤ maxMessageSize)
    (rereads : ∀ message ∈ messages, text.fromSlice (text.toVec message.serialize) =
      if message.serialize.depth ≤ 127 then some (carry reread message.serialize) else none) :
    RoundTrips text messages ↔
      ∀ message ∈ messages, message.serialize.depth ≤ 127 ∧ message.Survives reread := by
  have same : ∀ message ∈ messages, (writeMessage text message []).1 = .ok () ∧
      encodeMessage text message = .ok (writeMessage text message []).2 := by
    intro message member
    rw [writeMessage_eq text (fits message member), encodeMessage_eq text (fits message member)]
    exact ⟨rfl, rfl⟩
  rw [RoundTrips, and_iff_left same]
  simp only [writeMessages_eq text fits, List.nil_append, Prod.mk.injEq, true_and,
    exists_eq_left', yields_iff text fits]
  refine forall₂_congr fun message member => ?_
  rw [rereads message member]
  split
  · rename_i shallow
    rw [Option.bind_some, FriendzMessage.deserialize_carried_iff, and_iff_right shallow]
  · rename_i deep
    simp [deep]

end

@[grind =]
def SerdeJson.knowing (message : FriendzMessage (Json Number)) (written : String) : SerdeJson where
  toVec _ := written.toUTF8.data.toList
  fromSlice bytes :=
    if bytes = written.toUTF8.data.toList then some (carry id message.serialize) else none

theorem heartbeat_roundTrips :
    let message := FriendzMessage.core (.heartbeat 1 "n" "u" (some (.string "x")))
    let text := SerdeJson.knowing message
      "\x7b\"type\":\"heartbeat\",\"v\":1,\"nodeId\":\"n\",\"username\":\"u\",\"appPayload\":\"x\"\x7d"
    RoundTrips text [message] := by
  intro message text
  refine (roundTrips_iff text id [message] ?_ ?_).mpr ?_
  · simp only [List.forall_mem_singleton]
    decide
  · simp only [List.forall_mem_singleton, text, SerdeJson.knowing, if_true]
    rfl
  · simp only [List.forall_mem_singleton]
    refine ⟨by decide, fun payload known => ?_⟩
    cases known
    simp

/-- A digest with a present `null` for the app is read back without it. -/
theorem gossipDigest_null_payload_is_lost :
    let message := FriendzMessage.core (.gossipDigest 1 [] [] (some .null))
    let text := SerdeJson.knowing message
      "\x7b\"type\":\"gossip-digest\",\"v\":1,\"appPayload\":null\x7d"
    (text.toVec message.serialize).length ≤ maxMessageSize ∧
      text.fromSlice (text.toVec message.serialize) = some (carry id message.serialize) ∧
      ¬ RoundTrips text [message] := by
  intro message text
  have small : (text.toVec message.serialize).length ≤ maxMessageSize := by decide
  have read : text.fromSlice (text.toVec message.serialize) =
      some (carry id message.serialize) := by
    simp only [text, SerdeJson.knowing, if_true]
  refine ⟨small, read, ?_⟩
  rintro ⟨⟨bytes, wrote, yielded⟩, -⟩
  have fits : ∀ other ∈ [message], (text.toVec other.serialize).length ≤ maxMessageSize := by
    simpa using small
  rw [writeMessages_eq text fits, List.nil_append] at wrote
  cases wrote
  have back := (yields_iff text fits).mp yielded message List.mem_cons_self
  rw [read, Option.bind_some, FriendzMessage.deserialize_carried_iff] at back
  exact (back .null rfl).1 rfl

end Tomb.Haruspex.Protocol
