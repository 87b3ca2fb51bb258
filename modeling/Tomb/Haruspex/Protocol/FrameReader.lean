import Tomb.Haruspex.Protocol.Schemas
import Tomb.Lib.Streaming

/-! The javascript side of the stream: messages framed behind their length, and the reader that puts
them together again from whatever chunks the stream comes in. -/
namespace Tomb.Haruspex.Protocol
open Tomb.Lib

def encodeFriendzMessageToJson : DecodedMessage → Json ℚ
  | .core message => message
  | .appExtension _ payload => payload

structure JsonText where
  stringify : Json ℚ → List UInt8
  parse : List UInt8 → Option (Json ℚ)

namespace JsonText

variable (text : JsonText)

def encodeMessage (message : DecodedMessage) : List UInt8 :=
  text.stringify (encodeFriendzMessageToJson message)

def decodeMessage (bytes : List UInt8) : Except DecodeError DecodedMessage :=
  match text.parse bytes with
  | some raw => decodeFriendzMessage raw
  | none => .error (.message "friendz message bytes are not valid json")

def frameMessage (message : DecodedMessage) : List UInt8 := frame (text.encodeMessage message)

end JsonText

/-- A core message is what the schema makes of it, up to the order of keys; an extension is an object
of its type. -/
def DecodedMessage.WellFormed : DecodedMessage → Prop
  | .core message => ∃ kept, coreMessageSchema.parse (some message) = some (some kept) ∧
      kept.canonical = message.canonical
  | .appExtension messageType payload => ':' ∈ messageType.toList ∧
      ∃ entries, payload = .object entries ∧ lookup entries "type" = some (.string messageType)

def DecodedMessage.sorted : DecodedMessage → DecodedMessage
  | .core message => .core message.canonical
  | .appExtension messageType payload => .appExtension messageType payload.canonical

structure FrameReader where
  buffer : List UInt8

namespace FrameReader

@[grind =] def prepend {β : Type} (messages : List DecodedMessage) :
    Except DecodeError (List DecodedMessage) × β → Except DecodeError (List DecodedMessage) × β
  | (.ok more, rest) => (.ok (messages ++ more), rest)
  | (.error error, rest) => (.error error, rest)

@[grind =] def pendingByteLength (reader : FrameReader) : Nat := reader.buffer.length

variable (text : JsonText)

/-- The loop of `push`: a frame that fails to decode stays at the head of the buffer, and what was
decoded before it is lost. -/
def drain (buffer : List UInt8) : Except DecodeError (List DecodedMessage) × List UInt8 :=
  if buffer.length < 4 then (.ok [], buffer)
  else
    let length := fromBe32 (buffer.take 4)
    if buffer.length < 4 + length then (.ok [], buffer)
    else match text.decodeMessage ((buffer.drop 4).take length) with
      | .error error => (.error error, buffer)
      | .ok message => prepend [message] (drain (buffer.drop (4 + length)))
termination_by buffer.length
decreasing_by rw [List.length_drop]; omega

def push (reader : FrameReader) (chunk : List UInt8) :
    Except DecodeError (List DecodedMessage) × FrameReader :=
  ((drain text (reader.buffer ++ chunk)).1, ⟨(drain text (reader.buffer ++ chunk)).2⟩)

def pushAll : FrameReader → List (List UInt8) →
    Except DecodeError (List DecodedMessage) × FrameReader
  | reader, [] => (.ok [], reader)
  | reader, chunk :: rest =>
    match reader.push text chunk with
    | (.error error, reader) => (.error error, reader)
    | (.ok messages, reader) => prepend messages (reader.pushAll rest)

@[simp] theorem prepend_nil {β : Type} (result : Except DecodeError (List DecodedMessage) × β) :
    prepend [] result = result := by
  obtain ⟨_ | _, _⟩ := result <;> rfl

theorem prepend_prepend {β : Type} (first second : List DecodedMessage)
    (result : Except DecodeError (List DecodedMessage) × β) :
    prepend first (prepend second result) = prepend (first ++ second) result := by
  obtain ⟨_ | _, _⟩ := result <;> simp [prepend]

variable {messages : List DecodedMessage}

theorem prepend_eq_ok_iff {β : Type} {all : List DecodedMessage} {rest : β}
    {result : Except DecodeError (List DecodedMessage) × β} :
    prepend messages result = (.ok all, rest) ↔
      ∃ more, result = (.ok more, rest) ∧ messages ++ more = all := by
  obtain ⟨_ | more, tail⟩ := result
  · simp [prepend]
  · simp only [prepend, Prod.mk.injEq, Except.ok.injEq]
    constructor
    · rintro ⟨rfl, rfl⟩
      exact ⟨more, ⟨rfl, rfl⟩, rfl⟩
    · rintro ⟨_, ⟨rfl, rfl⟩, rfl⟩
      exact ⟨rfl, rfl⟩

@[grind =] def Waiting (buffer : List UInt8) : Prop :=
  buffer.length < 4 + fromBe32 (buffer.take 4)

theorem waiting_nil : Waiting [] := by
  rw [Waiting, List.length_nil]
  omega

variable {buffer : List UInt8}

theorem drain_of_waiting (waiting : Waiting buffer) : drain text buffer = (.ok [], buffer) := by
  rw [drain]
  split
  · rfl
  · exact if_pos waiting

theorem drain_of_whole (whole : ¬ Waiting buffer) : drain text buffer =
      match text.decodeMessage ((buffer.drop 4).take (fromBe32 (buffer.take 4))) with
      | .error error => (.error error, buffer)
      | .ok message => prepend [message] (drain text (buffer.drop (4 + fromBe32 (buffer.take 4)))) := by
  rw [drain, if_neg fun short => whole (by rw [Waiting]; omega)]
  exact if_neg whole

theorem drain_frame {payload : List UInt8} (fits : payload.length < 2 ^ 32) (rest : List UInt8) :
    drain text (frame payload ++ rest) =
      match text.decodeMessage payload with
      | .error error => (.error error, frame payload ++ rest)
      | .ok message => prepend [message] (drain text rest) := by
  have header : fromBe32 ((frame payload ++ rest).take 4) = payload.length := fromBe32_toBe32 fits
  have body : ((frame payload ++ rest).drop 4).take payload.length = payload := by
    simp [frame, toBe32]
  have tail : (frame payload ++ rest).drop (4 + payload.length) = rest := by
    rw [← length_frame, List.drop_left]
  have whole : ¬ Waiting (frame payload ++ rest) := by
    rw [Waiting, header, List.length_append, length_frame]
    omega
  rw [drain_of_whole text whole, header, body, tail]

theorem drain_append (buffer more : List UInt8) :
    drain text (buffer ++ more) =
      match drain text buffer with
      | (.error error, rest) => (.error error, rest ++ more)
      | (.ok messages, rest) => prepend messages (drain text (rest ++ more)) := by
  induction size : buffer.length using Nat.strong_induction_on generalizing buffer with
  | _ n ih =>
    by_cases waiting : Waiting buffer
    · simp [drain_of_waiting text waiting]
    · have fits : 4 + fromBe32 (buffer.take 4) ≤ buffer.length := not_lt.mp waiting
      have header : (buffer ++ more).take 4 = buffer.take 4 :=
        List.take_append_of_le_length (by omega)
      have body : ((buffer ++ more).drop 4).take (fromBe32 (buffer.take 4)) =
          (buffer.drop 4).take (fromBe32 (buffer.take 4)) := by
        rw [List.drop_append_of_le_length (by omega),
          List.take_append_of_le_length (by rw [List.length_drop]; omega)]
      have whole : ¬ Waiting (buffer ++ more) := by
        rw [Waiting, header, List.length_append]
        omega
      rw [drain_of_whole text whole, drain_of_whole text waiting, header, body,
        List.drop_append_of_le_length fits]
      cases text.decodeMessage ((buffer.drop 4).take (fromBe32 (buffer.take 4))) with
      | error error => rfl
      | ok message =>
        simp only
        rw [ih _ (by rw [List.length_drop]; omega) _ rfl]
        cases drain text (buffer.drop (4 + fromBe32 (buffer.take 4))) with
        | mk result rest =>
          cases result with
          | error error => rfl
          | ok messages => exact prepend_prepend [message] messages _

variable {rest : List UInt8}

theorem drain_waits (drained : drain text buffer = (.ok messages, rest)) : Waiting rest := by
  induction size : buffer.length using Nat.strong_induction_on generalizing buffer messages with
  | _ n ih =>
    by_cases waiting : Waiting buffer
    · rw [drain_of_waiting text waiting] at drained
      cases drained
      exact waiting
    · have fits : 4 + fromBe32 (buffer.take 4) ≤ buffer.length := not_lt.mp waiting
      rw [drain_of_whole text waiting] at drained
      split at drained
      · cases drained
      · obtain ⟨more, later, -⟩ := prepend_eq_ok_iff.mp drained
        exact ih _ (by rw [List.length_drop]; omega) later rfl

theorem pushAll_eq (waiting : Waiting buffer) {chunks : List (List UInt8)}
    (drained : drain text (buffer ++ chunks.flatten) = (.ok messages, rest)) :
    pushAll text ⟨buffer⟩ chunks = (.ok messages, ⟨rest⟩) := by
  induction chunks generalizing buffer messages with
  | nil =>
    rw [List.flatten_nil, List.append_nil, drain_of_waiting text waiting] at drained
    cases drained
    rfl
  | cons chunk later ih =>
    rw [List.flatten_cons, ← List.append_assoc, drain_append] at drained
    split at drained
    · cases drained
    · rename_i pushed tail first
      obtain ⟨more, later, rfl⟩ := prepend_eq_ok_iff.mp drained
      simp only [pushAll, push, first]
      rw [ih (drain_waits text first) later]
      rfl

/-- The bytes, among the first so many of a stream of frames, that belong to complete frames. -/
@[grind =] def completeBytes : List (List UInt8) → Nat → Nat
  | [], _ => 0
  | frame :: rest, received =>
    if frame.length ≤ received then frame.length + completeBytes rest (received - frame.length)
    else 0

theorem completeBytes_le (frames : List (List UInt8)) (received : Nat) :
    completeBytes frames received ≤ received := by
  induction frames generalizing received with
  | nil => exact Nat.zero_le _
  | cons frame rest ih =>
    rw [completeBytes]
    split
    · have := ih (received - frame.length)
      omega
    · exact Nat.zero_le _

theorem drain_frames {payloads : List (List UInt8)}
    (fits : ∀ payload ∈ payloads, payload.length < 2 ^ 32)
    (decodes : List.Forall₂ (fun payload message => text.decodeMessage payload = .ok message)
      payloads messages) : drain text (payloads.map frame).flatten = (.ok messages, []) := by
  induction decodes with
  | nil => exact drain_of_waiting text waiting_nil
  | @cons payload message payloads messages first rest ih =>
    obtain ⟨small, fits⟩ := List.forall_mem_cons.mp fits
    rw [List.map_cons, List.flatten_cons, drain_frame text small, first, ih fits]
    rfl

theorem waiting_of_short {payload received : List UInt8} (fits : payload.length < 2 ^ 32)
    (begins : received <+: frame payload ++ rest)
    (short : received.length < (frame payload).length) : Waiting received := by
  rw [Waiting]
  by_cases headless : received.length < 4
  · omega
  · obtain ⟨more, stream⟩ := begins
    have header : received.take 4 = toBe32 payload.length := by
      have start := congrArg (List.take 4) stream
      rw [List.take_append_of_le_length (by omega)] at start
      rw [start, frame, List.append_assoc]
      rfl
    rw [header, fromBe32_toBe32 fits, ← length_frame]
    exact short

/-- Draining the first bytes of a stream of frames leaves those of no complete frame. -/
theorem drain_begin {payloads : List (List UInt8)}
    (decodes : ∀ payload ∈ payloads, payload.length < 2 ^ 32 ∧
      ∃ message, text.decodeMessage payload = .ok message)
    {received : List UInt8} (begins : received <+: (payloads.map frame).flatten) :
    ∃ messages, drain text received =
      (.ok messages, received.drop (completeBytes (payloads.map frame) received.length)) := by
  induction payloads generalizing received with
  | nil =>
    rw [List.prefix_nil.mp begins]
    exact ⟨[], drain_of_waiting text waiting_nil⟩
  | cons payload payloads ih =>
    obtain ⟨⟨small, message, decoded⟩, decodes⟩ := List.forall_mem_cons.mp decodes
    rw [List.map_cons, List.flatten_cons] at begins
    by_cases whole : (frame payload).length ≤ received.length
    · obtain ⟨tail, rfl⟩ :=
        List.prefix_of_prefix_length_le (List.prefix_append _ _) begins whole
      obtain ⟨messages, drained⟩ := ih decodes ((List.prefix_append_right_inj _).mp begins)
      refine ⟨message :: messages, ?_⟩
      rw [drain_frame text small, decoded, drained, List.map_cons, completeBytes,
        if_pos whole, List.length_append, Nat.add_sub_cancel_left, ← List.drop_drop,
        List.drop_left]
      rfl
    · refine ⟨[], ?_⟩
      rw [drain_of_waiting text (waiting_of_short small begins (by omega)), List.map_cons,
        completeBytes, if_neg whole, List.drop_zero]

end FrameReader

theorem coreMessageOptions_types : coreMessageOptions.map Prod.fst = coreMessageTypes := rfl

theorem type_of_coreMessage {message : Json ℚ} {kept : Option (Json ℚ)}
    (parsed : coreMessageSchema.parse (some message) = some kept) :
    ∃ entries type, message = .object entries ∧ lookup entries "type" = some (.string type) ∧
      type ∈ coreMessageTypes := by
  cases message with
  | object entries =>
    obtain ⟨shape, found, -⟩ := Option.bind_eq_some_iff.mp parsed
    obtain ⟨tag, tagged, found⟩ := Option.bind_eq_some_iff.mp found
    cases tag with
    | string type =>
      refine ⟨entries, type, rfl, tagged, ?_⟩
      by_contra unknown
      rw [← coreMessageOptions_types] at unknown
      rw [Schema.option, lookup_eq_none unknown] at found
      cases found
    | _ => cases found
  | _ => cases parsed

theorem coreMessageTypes_plain : ∀ type ∈ coreMessageTypes, type ≠ "" ∧
    isAppExtensionType type = false := by decide

theorem DecodedMessage.WellFormed.decodes {message : DecodedMessage}
    (wellFormed : message.WellFormed) :
    ∃ back, decodeFriendzMessage (encodeFriendzMessageToJson message) = .ok back ∧
      back.sorted = message.sorted := by
  cases message with
  | core message =>
    obtain ⟨kept, parsed, same⟩ := wellFormed
    refine ⟨.core kept, ?_, by simp only [sorted, same]⟩
    obtain ⟨entries, type, rfl, tagged, known⟩ := type_of_coreMessage parsed
    obtain ⟨named, extension⟩ := coreMessageTypes_plain type known
    have core : isCoreMessageType type = true := by simpa [isCoreMessageType] using known
    simp [decodeFriendzMessage, encodeFriendzMessageToJson, tagged, named, extension, core,
      decodeCoreMessage, parsed]
  | appExtension messageType payload =>
    obtain ⟨colon, entries, rfl, tagged⟩ := wellFormed
    refine ⟨.appExtension messageType (.object entries), ?_, rfl⟩
    have extension : isAppExtensionType messageType = true := by
      simpa [isAppExtensionType] using colon
    have named : messageType ≠ "" := by
      rintro rfl
      simp at colon
    simp [decodeFriendzMessage, encodeFriendzMessageToJson, tagged, named, extension]

theorem decodes_all (text : JsonText) {messages : List DecodedMessage}
    (decodes : ∀ message ∈ messages, ∃ back,
      text.decodeMessage (text.encodeMessage message) = .ok back ∧ back.sorted = message.sorted) :
    ∃ received, List.Forall₂ (fun payload message => text.decodeMessage payload = .ok message)
        (messages.map text.encodeMessage) received ∧
      received.map DecodedMessage.sorted = messages.map DecodedMessage.sorted := by
  induction messages with
  | nil => exact ⟨[], .nil, rfl⟩
  | cons message rest ih =>
    obtain ⟨⟨back, first, same⟩, decodes⟩ := List.forall_mem_cons.mp decodes
    obtain ⟨received, later, sames⟩ := ih decodes
    exact ⟨back :: received, .cons first later, by simp only [List.map_cons, same, sames]⟩

/-- However the stream of their frames is cut into chunks, the reader gives back the messages, and
after every push it holds the bytes that belong to no complete frame. -/
theorem frameReader_reassembles (text : JsonText) (messages : List DecodedMessage)
    (parses : ∀ message ∈ messages, text.parse (text.encodeMessage message) =
      some (encodeFriendzMessageToJson message))
    (encodable : ∀ message ∈ messages, message.WellFormed ∧
      (text.encodeMessage message).length < 2 ^ 32)
    (chunks : List (List UInt8))
    (cut : chunks.flatten = (messages.map text.frameMessage).flatten) :
    (∃ received, (FrameReader.pushAll text ⟨[]⟩ chunks).1 = .ok received ∧
        received.map DecodedMessage.sorted = messages.map DecodedMessage.sorted) ∧
      ∀ pushed later, chunks = pushed ++ later →
        (FrameReader.pushAll text ⟨[]⟩ pushed).2.pendingByteLength +
          FrameReader.completeBytes (messages.map text.frameMessage) pushed.flatten.length =
            pushed.flatten.length := by
  have frames : messages.map text.frameMessage =
      (messages.map text.encodeMessage).map frame := by
    rw [List.map_map]
    rfl
  have decodes : ∀ message ∈ messages, ∃ back,
      text.decodeMessage (text.encodeMessage message) = .ok back ∧
        back.sorted = message.sorted := by
    intro message member
    obtain ⟨back, decoded, same⟩ := (encodable message member).1.decodes
    exact ⟨back, by rw [JsonText.decodeMessage, parses message member]; exact decoded, same⟩
  rw [frames] at cut ⊢
  constructor
  · obtain ⟨received, decoded, same⟩ := decodes_all text decodes
    have drained := FrameReader.drain_frames text
      (List.forall_mem_map.mpr fun message member => (encodable message member).2) decoded
    rw [← cut, ← List.nil_append chunks.flatten] at drained
    exact ⟨received, by rw [FrameReader.pushAll_eq text FrameReader.waiting_nil drained], same⟩
  · rintro pushed later rfl
    have begins : pushed.flatten <+: ((messages.map text.encodeMessage).map frame).flatten := by
      rw [← cut, List.flatten_append]
      exact List.prefix_append _ _
    obtain ⟨received, drained⟩ := FrameReader.drain_begin text
      (List.forall_mem_map.mpr fun message member => ⟨(encodable message member).2,
        (decodes message member).imp fun _ => And.left⟩) begins
    have fits := FrameReader.completeBytes_le ((messages.map text.encodeMessage).map frame)
      pushed.flatten.length
    rw [← List.nil_append pushed.flatten] at drained
    rw [FrameReader.pushAll_eq text FrameReader.waiting_nil drained]
    simp only [FrameReader.pendingByteLength, List.nil_append, List.length_drop]
    omega

theorem split_header_reassembles :
    let message := DecodedMessage.core
      (.object [("type", .string "blob-seek"), ("v", .number 1), ("needed", .array [])])
    let written := "\x7b\"type\":\"blob-seek\",\"v\":1,\"needed\":[]\x7d".toUTF8.data.toList
    let text : JsonText := ⟨fun _ => written, fun bytes =>
      if bytes = written then some (encodeFriendzMessageToJson message) else none⟩
    let stream := text.frameMessage message
    (∃ received, (FrameReader.pushAll text ⟨[]⟩ [stream.take 2, [], stream.drop 2]).1 =
        .ok received ∧
        received.map DecodedMessage.sorted = [message].map DecodedMessage.sorted) ∧
      ∀ pushed later, [stream.take 2, [], stream.drop 2] = pushed ++ later →
        (FrameReader.pushAll text ⟨[]⟩ pushed).2.pendingByteLength +
          FrameReader.completeBytes ([message].map text.frameMessage) pushed.flatten.length =
            pushed.flatten.length := by
  intro message written text stream
  refine frameReader_reassembles text [message] ?_ ?_ _ ?_
  · simp [text, JsonText.encodeMessage]
  · rw [List.forall_mem_singleton]
    refine ⟨⟨_, rfl, rfl⟩, by decide⟩
  · simp [stream]

end Tomb.Haruspex.Protocol
