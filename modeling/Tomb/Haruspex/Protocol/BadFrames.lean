import Tomb.Haruspex.Protocol.FrameReader

/-! The frame reader on a stream with frames that do not decode, when the one who pushes goes on after
a push has thrown. -/
namespace Tomb.Haruspex.Protocol
open Tomb.Lib

namespace FrameReader

variable (text : JsonText)

@[grind =] def Decodes (payload : List UInt8) : Prop := (text.decodeMessage payload).isOk = true

instance : DecidablePred (Decodes text) := fun payload =>
  inferInstanceAs (Decidable ((text.decodeMessage payload).isOk = true))

@[grind =] def messagesOf (payloads : List (List UInt8)) : List DecodedMessage :=
  payloads.filterMap fun payload => (text.decodeMessage payload).toOption

/-- One push: what it told, and where in the stream the buffer begins after it. -/
structure Push where
  result : Except DecodeError (List DecodedMessage)
  start : Nat

@[grind =] def pushEach : FrameReader → Nat → List (List UInt8) → List Push
  | _, _, [] => []
  | reader, received, chunk :: rest =>
    let (result, reader) := reader.push text chunk
    let received := received + chunk.length
    ⟨result, received - reader.pendingByteLength⟩ :: reader.pushEach received rest

@[grind =] def delivered (pushes : List Push) : List DecodedMessage :=
  pushes.flatMap fun push => push.result.toOption.getD []

@[grind =] def reported (pushes : List Push) : List Nat :=
  (pushes.filter fun push => !push.result.isOk).map Push.start

/-- Every frame that decodes is delivered once and in order, and no frame is reported twice. -/
structure Survives (payloads chunks : List (List UInt8)) : Prop where
  delivered : delivered (pushEach text ⟨[]⟩ 0 chunks) = messagesOf text payloads
  once : (reported (pushEach text ⟨[]⟩ 0 chunks)).Nodup

/-- The frames that do not decode are the last ones, and the last push brings all that is missing of
the first of them and nothing before it. -/
def BadInLastPush (received : Nat) (payloads chunks : List (List UInt8)) : Prop :=
  ∃ (good : List (List UInt8)) (bad : List UInt8) (later pushed : List (List UInt8))
      (last : List UInt8), payloads = good ++ bad :: later ∧ chunks = pushed ++ [last] ∧
    (∀ payload ∈ good, Decodes text payload) ∧ (∀ payload ∈ bad :: later, ¬Decodes text payload) ∧
    (good.map frame).flatten.length ≤ received + pushed.flatten.length ∧
    received + pushed.flatten.length < (good.map frame).flatten.length + (frame bad).length

theorem messagesOf_append (first second : List (List UInt8)) :
    messagesOf text (first ++ second) = messagesOf text first ++ messagesOf text second :=
  List.filterMap_append

variable {payloads : List (List UInt8)}

theorem messagesOf_eq_nil :
    messagesOf text payloads = [] ↔ ∀ payload ∈ payloads, ¬Decodes text payload := by
  unfold messagesOf Decodes
  rw [List.filterMap_eq_nil_iff]
  refine forall₂_congr fun payload _ => ?_
  cases text.decodeMessage payload <;> simp [Except.toOption, Except.isOk, Except.toBool]

theorem drain_cases (small : ∀ payload ∈ payloads, payload.length < 2 ^ 32) {received : List UInt8}
    (begins : received <+: (payloads.map frame).flatten) :
    ∃ done left rest, payloads = done ++ left ∧ (∀ payload ∈ done, Decodes text payload) ∧
      received = (done.map frame).flatten ++ rest ∧
      ((drain text received = (.ok (messagesOf text done), rest) ∧ Waiting rest) ∨
        ∃ bad later error, left = bad :: later ∧ ¬Decodes text bad ∧ frame bad <+: rest ∧
          drain text received = (.error error, rest)) := by
  induction payloads generalizing received with
  | nil =>
    rw [List.prefix_nil.mp begins]
    exact ⟨[], [], [], rfl, by simp, rfl, .inl ⟨drain_of_waiting text waiting_nil, waiting_nil⟩⟩
  | cons payload payloads ih =>
    obtain ⟨fits, small⟩ := List.forall_mem_cons.mp small
    rw [List.map_cons, List.flatten_cons] at begins
    by_cases whole : (frame payload).length ≤ received.length
    · obtain ⟨tail, rfl⟩ :=
        List.prefix_of_prefix_length_le (List.prefix_append _ _) begins whole
      cases decoded : text.decodeMessage payload with
      | error error =>
        refine ⟨[], payload :: payloads, frame payload ++ tail, rfl, by simp, rfl,
          .inr ⟨payload, payloads, error, rfl, ?_, List.prefix_append _ _, ?_⟩⟩
        · simp [Decodes, decoded, Except.isOk, Except.toBool]
        · rw [drain_frame text fits, decoded]
      | ok message =>
        obtain ⟨done, left, rest, rfl, good, rfl, ends⟩ :=
          ih small ((List.prefix_append_right_inj _).mp begins)
        have decodes : Decodes text payload := by
          simp [Decodes, decoded, Except.isOk, Except.toBool]
        have first : messagesOf text (payload :: done) = message :: messagesOf text done := by
          simp [messagesOf, decoded, Except.toOption]
        refine ⟨payload :: done, left, rest, rfl, List.forall_mem_cons.mpr ⟨decodes, good⟩,
          by simp, ?_⟩
        rw [drain_frame text fits, decoded]
        rcases ends with ⟨drained, waits⟩ | ⟨bad, later, error, rfl, fails, there, drained⟩
        · refine .inl ⟨?_, waits⟩
          rw [drained, first]
          rfl
        · refine .inr ⟨bad, later, error, rfl, fails, there, ?_⟩
          rw [drained]
          rfl
    · have waits : Waiting received := waiting_of_short fits begins (by omega)
      exact ⟨[], payload :: payloads, received, rfl, by simp, rfl,
        .inl ⟨drain_of_waiting text waits, waits⟩⟩

variable {bad buffer : List UInt8}

theorem pushEach_stuck (small : bad.length < 2 ^ 32) (fails : ¬Decodes text bad) (there : frame bad <+: buffer) (received : Nat)
    (chunks : List (List UInt8)) : delivered (pushEach text ⟨buffer⟩ received chunks) = [] ∧
      reported (pushEach text ⟨buffer⟩ received chunks) =
        chunks.map fun _ => received - buffer.length := by
  induction chunks generalizing buffer received with
  | nil => exact ⟨rfl, rfl⟩
  | cons chunk rest ih =>
    obtain ⟨more, rfl⟩ := there
    cases decoded : text.decodeMessage bad with
    | ok message => simp [Decodes, decoded, Except.isOk, Except.toBool] at fails
    | error error =>
      have pushed : drain text (frame bad ++ more ++ chunk) =
          (.error error, frame bad ++ more ++ chunk) := by
        rw [List.append_assoc, drain_frame text small, decoded]
      have still : frame bad <+: frame bad ++ more ++ chunk := by
        rw [List.append_assoc]
        exact List.prefix_append _ _
      have same : received + chunk.length - (frame bad ++ more ++ chunk).length =
          received - (frame bad ++ more).length := by
        rw [List.length_append, Nat.add_sub_add_right]
      obtain ⟨none, reports⟩ := ih still (received + chunk.length)
      simp only [pushEach, push, pushed, delivered, reported, pendingByteLength] at none reports ⊢
      rw [List.flatMap_cons, none, List.filter_cons_of_pos rfl, List.map_cons, List.map_cons,
        reports, same]
      exact ⟨rfl, rfl⟩

theorem not_waiting_frame {payload : List UInt8} (fits : payload.length < 2 ^ 32)
    (rest : List UInt8) : ¬Waiting (frame payload ++ rest) := by
  have header : fromBe32 ((frame payload ++ rest).take 4) = payload.length := fromBe32_toBe32 fits
  rw [Waiting, header, List.length_append, length_frame]
  omega

/-- A buffer that waits is shorter than the frame that it begins with. -/
theorem Waiting.short {payload rest : List UInt8} (waiting : Waiting buffer)
    (fits : payload.length < 2 ^ 32) (begins : buffer <+: frame payload ++ rest) :
    buffer.length < (frame payload).length := by
  by_contra whole
  obtain ⟨tail, rfl⟩ := List.prefix_of_prefix_length_le (List.prefix_append _ _) begins
    (not_lt.mp whole)
  exact not_waiting_frame fits tail waiting

variable {done : List (List UInt8)}

theorem good_prefix {left good later : List (List UInt8)}
    (decode : ∀ payload ∈ done, Decodes text payload) (fails : ¬Decodes text bad)
    (same : done ++ left = good ++ bad :: later) :
    ∃ more, good = done ++ more ∧ left = more ++ bad :: later := by
  rcases List.append_eq_append_iff.mp same with ⟨more, rfl, rest⟩ | ⟨more, rfl, rest⟩
  · exact ⟨more, rfl, rest⟩
  · cases more with
    | nil => exact ⟨[], by simp, rest.symm⟩
    | cons first more =>
      cases rest
      exact absurd (decode bad (by simp)) fails

theorem badInLastPush_later {left rest : List (List UInt8)} {chunk held : List UInt8}
    (small : ∀ payload ∈ done ++ left, payload.length < 2 ^ 32)
    (decode : ∀ payload ∈ done, Decodes text payload)
    (split : buffer ++ chunk = (done.map frame).flatten ++ held) (waits : Waiting held)
    (cut : held ++ rest.flatten = (left.map frame).flatten) :
    BadInLastPush text buffer.length (done ++ left) (chunk :: rest) ↔
      BadInLastPush text held.length left rest := by
  have sizes := congrArg List.length split
  rw [List.length_append, List.length_append] at sizes
  constructor
  · rintro ⟨good, bad, later, pushed, last, same, chunks, goods, bads, low, high⟩
    have fails := bads bad List.mem_cons_self
    obtain ⟨more, rfl, rfl⟩ := good_prefix text decode fails same
    rw [List.map_append, List.flatten_append, List.length_append] at low high
    cases pushed with
    | nil =>
      cases chunks
      rw [List.flatten_nil, List.length_nil] at low
      rw [List.flatten_nil, List.append_nil, List.map_append, List.flatten_append, List.map_cons,
        List.flatten_cons] at cut
      subst cut
      cases more with
      | nil => exact absurd waits (not_waiting_frame (small bad (by simp)) _)
      | cons first more =>
        rw [List.map_cons, List.flatten_cons, List.append_assoc] at waits
        exact absurd waits (not_waiting_frame (small first (by simp)) _)
    | cons first pushed =>
      cases chunks
      rw [List.flatten_cons, List.length_append] at low high
      exact ⟨more, bad, later, pushed, last, rfl, rfl,
        fun payload there => goods payload (List.mem_append_right _ there), bads, by omega, by omega⟩
  · rintro ⟨good, bad, later, pushed, last, rfl, rfl, goods, bads, low, high⟩
    refine ⟨done ++ good, bad, later, chunk :: pushed, last, by simp, rfl, ?_, bads, ?_, ?_⟩
    · intro payload there
      exact (List.mem_append.mp there).elim (decode payload) (goods payload)
    · rw [List.map_append, List.flatten_append, List.length_append, List.flatten_cons,
        List.length_append]
      omega
    · rw [List.map_append, List.flatten_append, List.length_append, List.flatten_cons,
        List.length_append]
      omega

theorem badInLastPush_now {later rest : List (List UInt8)} {chunk held : List UInt8}
    (small : ∀ payload ∈ done ++ bad :: later, payload.length < 2 ^ 32)
    (decode : ∀ payload ∈ done, Decodes text payload) (fails : ¬Decodes text bad)
    (waiting : Waiting buffer) (begins : buffer <+: ((done ++ bad :: later).map frame).flatten)
    (split : buffer ++ chunk = (done.map frame).flatten ++ held) (there : frame bad <+: held) :
    BadInLastPush text buffer.length (done ++ bad :: later) (chunk :: rest) ↔
      done = [] ∧ (∀ payload ∈ later, ¬Decodes text payload) ∧ rest = [] := by
  have sizes := congrArg List.length split
  rw [List.length_append, List.length_append] at sizes
  have whole := there.length_le
  constructor
  · rintro ⟨good, first, after, pushed, last, same, chunks, goods, bads, low, high⟩
    obtain ⟨more, rfl, left⟩ := good_prefix text decode (bads first List.mem_cons_self) same
    cases more with
    | cons other more =>
      cases left
      exact absurd (goods bad (by simp)) fails
    | nil =>
      cases left
      rw [List.append_nil] at low high
      cases pushed with
      | nil =>
        cases chunks
        rw [List.flatten_nil, List.length_nil] at low
        cases done with
        | nil => exact ⟨rfl, fun payload there => bads payload (List.mem_cons_of_mem _ there), rfl⟩
        | cons payload done =>
          rw [List.cons_append, List.map_cons, List.flatten_cons] at begins
          have short := waiting.short (small payload (by simp)) begins
          rw [List.map_cons, List.flatten_cons, List.length_append] at low
          omega
      | cons push pushed =>
        cases chunks
        rw [List.flatten_cons, List.length_append] at high
        omega
  · rintro ⟨rfl, bads, rfl⟩
    have short := waiting.short (small bad (by simp)) begins
    refine ⟨[], bad, later, [], chunk, rfl, rfl, by simp, List.forall_mem_cons.mpr ⟨fails, bads⟩,
      Nat.zero_le _, ?_⟩
    rw [List.map_nil, List.flatten_nil, List.length_nil, Nat.zero_add]
    exact short

theorem survives_from (small : ∀ payload ∈ payloads, payload.length < 2 ^ 32)
    (waiting : Waiting buffer) (received : Nat) {chunks : List (List UInt8)}
    (cut : buffer ++ chunks.flatten = (payloads.map frame).flatten) : let pushes := pushEach text ⟨buffer⟩ received chunks
    delivered pushes = messagesOf text payloads ∧ (reported pushes).Nodup ↔
      (∀ payload ∈ payloads, Decodes text payload) ∨
        BadInLastPush text buffer.length payloads chunks := by
  induction chunks generalizing payloads buffer received with
  | nil =>
    rw [List.flatten_nil, List.append_nil] at cut
    cases payloads with
    | nil => exact iff_of_true ⟨rfl, List.nodup_nil⟩ (.inl (by simp))
    | cons payload payloads =>
      subst cut
      rw [List.map_cons, List.flatten_cons] at waiting
      exact absurd waiting (not_waiting_frame (small payload List.mem_cons_self) _)
  | cons chunk rest ih =>
    have begins : buffer ++ chunk <+: (payloads.map frame).flatten := by
      rw [← cut, List.flatten_cons, ← List.append_assoc]
      exact List.prefix_append _ _
    obtain ⟨done, left, held, rfl, good, split, ends⟩ := drain_cases text small begins
    rcases ends with ⟨drained, waits⟩ | ⟨bad, later, error, rfl, fails, there, drained⟩
    · rw [List.flatten_cons, ← List.append_assoc, split, List.map_append, List.flatten_append,
        List.append_assoc] at cut
      have left' := List.append_cancel_left cut
      have rest' := ih (fun payload member => small payload (List.mem_append_right _ member)) waits
        (received + chunk.length) left'
      dsimp only at rest' ⊢
      rw [badInLastPush_later text small good split waits left', List.forall_mem_append,
        and_iff_right good, ← rest', messagesOf_append]
      simp only [pushEach, push, drained, delivered, reported, List.flatMap_cons]
      rw [List.filter_cons_of_neg (by simp [Except.isOk, Except.toBool])]
      exact and_congr_left fun _ => List.append_right_inj (messagesOf text done)
    · obtain ⟨none, reports⟩ := pushEach_stuck text (small bad (by simp)) fails there
        (received + chunk.length) rest
      rw [badInLastPush_now text small good fails waiting ((List.prefix_append _ _).trans begins)
        split there]
      simp only [pushEach, push, drained, delivered, reported, List.flatMap_cons] at none reports ⊢
      rw [none, List.filter_cons_of_pos rfl, List.map_cons, reports]
      constructor
      · rintro ⟨lost, once⟩
        have silent := (messagesOf_eq_nil text).mp lost.symm
        refine .inr ⟨?_, fun payload member => silent payload (by simp [member]), ?_⟩
        · cases done with
          | nil => rfl
          | cons first done => exact absurd (good first (by simp)) (silent first (by simp))
        · cases rest with
          | nil => rfl
          | cons next rest => exact absurd List.mem_cons_self (List.nodup_cons.mp once).1
      · rintro (decode | ⟨rfl, bads, rfl⟩)
        · exact absurd (decode bad (by simp)) fails
        · refine ⟨((messagesOf_eq_nil text).mpr ?_).symm, List.nodup_singleton _⟩
          exact List.forall_mem_cons.mpr ⟨fails, bads⟩

/-- The reader survives exactly the streams without bad frames, and those that end in bad frames of
which the last push alone completes any, and nothing else. -/
theorem survives_iff {payloads : List (List UInt8)}
    (small : ∀ payload ∈ payloads, payload.length < 2 ^ 32) {chunks : List (List UInt8)}
    (cut : chunks.flatten = (payloads.map frame).flatten) :
    Survives text payloads chunks ↔
      (∀ payload ∈ payloads, Decodes text payload) ∨ BadInLastPush text 0 payloads chunks := by
  have law := survives_from text small waiting_nil 0 cut
  exact ⟨fun ⟨told, once⟩ => law.mp ⟨told, once⟩, fun holds => ⟨(law.mpr holds).1, (law.mpr holds).2⟩⟩

def seekText : List UInt8 :=
  "\x7b\"type\":\"blob-seek\",\"v\":1,\"needed\":[]\x7d".toUTF8.data.toList

def seekOnly : JsonText where
  stringify := fun _ => seekText
  parse := fun bytes => if bytes = seekText then
    some (.object [("type", .string "blob-seek"), ("v", .number 1), ("needed", .array [])]) else none

theorem decodes_seekText : Decodes seekOnly seekText := by decide

theorem not_decodes_question : ¬Decodes seekOnly [63] := by decide

theorem survives_iff_bad_at_end :
    Survives seekOnly [seekText, [63]] [frame seekText, frame [63]] ↔
      (∀ payload ∈ [seekText, [63]], Decodes seekOnly payload) ∨
        BadInLastPush seekOnly 0 [seekText, [63]] [frame seekText, frame [63]] :=
  survives_iff seekOnly (by decide) rfl

/-- A question mark between two messages: neither is ever delivered, though one comes before it. -/
theorem question_mark_blocks :
    ¬Survives seekOnly [seekText, [63], seekText] [frame seekText ++ frame [63], frame seekText] := by
  intro survives
  have small : ∀ payload ∈ [seekText, [63], seekText], payload.length < 2 ^ 32 := by decide
  rcases (survives_from seekOnly small waiting_nil 0 (by simp)).mp
    ⟨survives.delivered, survives.once⟩ with decode | ⟨good, bad, later, _, _, same, _, _, bads, _⟩
  · exact not_decodes_question (decode [63] (by simp))
  · have last : seekText ∈ bad :: later := by
      have ends := congrArg List.getLast? same
      rw [List.getLast?_append_of_ne_nil _ (List.cons_ne_nil bad later)] at ends
      exact List.mem_of_getLast? ends.symm
    exact bads seekText last decodes_seekText

end FrameReader

end Tomb.Haruspex.Protocol
