import Mathlib.Data.List.Induction
import Tomb.Grimoire.Radio.BoxParser

/-! The chunks of a stream: they do not depend on how it is read, each ends at the box that its rule
names, and together they are the beginning of the stream. -/
namespace Tomb.Grimoire.Radio.BoxParser
open Tomb.Lib Mp4

inductive Boxes : Bytes → List Bytes → Prop where
  | nil : Boxes [] []
  | cons {box rest kind : Bytes} {kinds : List Bytes} (header : readHeader box = some (box.length, kind))
    (whole : boxHeaderLen ≤ box.length) (later : Boxes rest kinds) :
    Boxes (box ++ rest) (kind :: kinds)

variable {kind : Bytes} {kinds : List Bytes}

theorem Boxes.snoc {bytes box : Bytes} (boxes : Boxes bytes kinds)
    (header : readHeader box = some (box.length, kind)) (whole : boxHeaderLen ≤ box.length) :
    Boxes (bytes ++ box) (kinds ++ [kind]) := by
  induction boxes with
  | nil =>
    have last : Boxes (box ++ []) [kind] := .cons header whole .nil
    rw [List.append_nil] at last
    exact last
  | cons first whole_ later ih =>
    rw [List.append_assoc]
    exact .cons first whole_ ih

theorem readHeader_append {bytes : Bytes} {size : Nat}
    (header : readHeader bytes = some (size, kind)) (more : Bytes) :
    readHeader (bytes ++ more) = some (size, kind) := by
  unfold readHeader at header
  split at header
  · exact header
  · cases header

theorem readHeader_take {bytes : Bytes} {size len : Nat}
    (header : readHeader bytes = some (size, kind)) (long : boxHeaderLen ≤ len) :
    readHeader (bytes.take len) = some (size, kind) := by
  unfold readHeader at header
  split at header
  · match len, long with
    | len + 8, _ => exact header
  · cases header

structure BoxAt (buf : Bytes) (cursor size : Nat) (kind : Bytes) : Prop where
  header : readHeader (buf.drop cursor) = some (size, kind)
  whole : boxHeaderLen ≤ size
  inside : cursor + size ≤ buf.length

namespace BoxAt
variable {buf : Bytes} {cursor size : Nat} {kind : Bytes}

theorem cursor_lt (box : BoxAt buf cursor size kind) : cursor < cursor + size :=
  Nat.lt_add_of_pos_right (Nat.lt_of_lt_of_le (by decide) box.whole)

theorem cursor_le (box : BoxAt buf cursor size kind) : cursor ≤ buf.length :=
  Nat.le_trans (Nat.le_add_right ..) box.inside

theorem turn (box : BoxAt buf cursor size kind) (initDone sawMoof : Bool) :
    BoxParser.turn initDone buf cursor sawMoof =
      passBox initDone kind (cursor + size) sawMoof := by
  unfold BoxParser.turn
  rw [box.header]
  simp only
  rw [if_neg (Nat.not_lt.mpr box.whole), if_neg (Nat.not_lt.mpr box.inside)]

theorem append (box : BoxAt buf cursor size kind) (more : Bytes) :
    BoxAt (buf ++ more) cursor size kind := by
  refine ⟨?_, box.whole, ?_⟩
  · rw [List.drop_append_of_le_length box.cursor_le]
    exact readHeader_append box.header more
  · rw [List.length_append]
    exact Nat.le_trans box.inside (Nat.le_add_right ..)

theorem boxes (box : BoxAt buf cursor size kind) {kinds : List Bytes}
    (passed : Boxes (buf.take cursor) kinds) : Boxes (buf.take (cursor + size)) (kinds ++ [kind]) := by
  have length : ((buf.drop cursor).take size).length = size := by
    have inside := box.inside
    rw [List.length_take, List.length_drop]
    omega
  rw [List.take_add]
  refine passed.snoc ?_ ?_
  · rw [length]
    exact readHeader_take box.header box.whole
  · rw [length]
    exact box.whole

end BoxAt

theorem turn_cases (initDone : Bool) (buf : Bytes) (cursor : Nat) (sawMoof : Bool) :
    turn initDone buf cursor sawMoof = .wait ∨ ∃ size kind, BoxAt buf cursor size kind := by
  unfold turn
  split
  · exact .inl rfl
  · rename_i size kind header
    split
    · exact .inl rfl
    · rename_i whole
      split
      · exact .inl rfl
      · rename_i inside
        exact .inr ⟨size, kind, header, Nat.le_of_not_lt whole, Nat.le_of_not_lt inside⟩

theorem passBox_cases (initDone : Bool) (kind : Bytes) (next : Nat) (sawMoof : Bool) :
    passBox initDone kind next sawMoof = .close next ∨
      ∃ sawMoof', passBox initDone kind next sawMoof = .advance next sawMoof' := by
  unfold passBox
  split
  · split
    · exact .inl rfl
    · exact .inr ⟨_, rfl⟩
  · split
    · exact .inr ⟨_, rfl⟩
    · split
      · exact .inl rfl
      · exact .inr ⟨_, rfl⟩

/-- Each turn passes a box or is the last, so the loop ends within as many turns as bytes are left. -/
theorem walk_isSome (initDone : Bool) (buf : Bytes) {turns cursor : Nat} (inside : cursor ≤ buf.length)
    (enough : buf.length < cursor + turns) (sawMoof : Bool) :
    (walk initDone buf turns cursor sawMoof).isSome := by
  induction turns generalizing cursor sawMoof with
  | zero => exact absurd enough (Nat.not_lt.mpr inside)
  | succ turns ih =>
    rw [walk]
    obtain waits | ⟨size, kind, box⟩ := turn_cases initDone buf cursor sawMoof
    · rw [waits]
      rfl
    · rw [box.turn]
      obtain closes | ⟨sawMoof', advances⟩ := passBox_cases initDone kind (cursor + size) sawMoof
      · rw [closes]
        rfl
      · rw [advances]
        have further := box.cursor_lt
        exact ih box.inside (by omega) sawMoof'

variable {initDone sawMoof : Bool} {buf : Bytes} {next : Nat}

theorem walk_append {turns turns' cursor : Nat}
    (closed : walk initDone buf turns cursor sawMoof = some (some next)) (more : Bytes)
    (enough : turns ≤ turns') :
    walk initDone (buf ++ more) turns' cursor sawMoof = some (some next) := by
  induction turns generalizing turns' cursor sawMoof with
  | zero => cases closed
  | succ turns ih =>
    match turns', enough with
    | turns' + 1, enough =>
      rw [walk] at closed ⊢
      obtain waits | ⟨size, kind, box⟩ := turn_cases initDone buf cursor sawMoof
      · rw [waits] at closed
        cases closed
      · rw [box.turn] at closed
        rw [(box.append more).turn]
        obtain closes | ⟨sawMoof', advances⟩ :=
          passBox_cases initDone kind (cursor + size) sawMoof
        · rw [closes] at closed ⊢
          exact closed
        · rw [advances] at closed ⊢
          exact ih closed (Nat.le_of_succ_le_succ enough)

/-- The boxes that a chunk may have before its last one, and whether a `moof` is among them. -/
structure Passed (initDone : Bool) (kinds : List Bytes) (sawMoof : Bool) : Prop where
  noMoov : initDone = false → moov ∉ kinds
  seen : initDone = true → (sawMoof = true ↔ moof ∈ kinds)
  noFragment : initDone = true → ∀ before after, kinds = before ++ mdat :: after → moof ∉ before

/-- An init chunk is boxes up to the first `moov`; a media chunk is boxes up to the first `mdat`
behind a `moof` of it. -/
def ChunkKinds : (isInit : Bool) → List Bytes → Prop
  | true, kinds => ∃ before, kinds = before ++ [moov] ∧ moov ∉ before
  | false, kinds => ∃ before, kinds = before ++ [mdat] ∧ moof ∈ before ∧
      ∀ earlier later, before = earlier ++ mdat :: later → moof ∉ earlier

theorem Passed.nil (initDone : Bool) : Passed initDone [] false where
  noMoov := fun _ => List.not_mem_nil
  seen := fun _ => by simp only [Bool.false_eq_true, List.not_mem_nil]
  noFragment := fun _ before after cut => by
    cases before with
    | nil => cases cut
    | cons kind before => cases cut

theorem Passed.close {next' : Nat} (passed : Passed initDone kinds sawMoof)
    (closes : passBox initDone kind next sawMoof = .close next') :
    ChunkKinds (!initDone) (kinds ++ [kind]) := by
  unfold passBox at closes
  cases initDone with
  | false =>
    simp only [Bool.not_false, if_true] at closes
    split at closes
    · rename_i last
      exact ⟨kinds, by rw [last], passed.noMoov rfl⟩
    · cases closes
  | true =>
    simp only [Bool.not_true, Bool.false_eq_true, if_false, Bool.and_eq_true, decide_eq_true_eq]
      at closes
    split at closes
    · cases closes
    · split at closes
      · rename_i last
        exact ⟨kinds, by rw [last.1], (passed.seen rfl).mp last.2, passed.noFragment rfl⟩
      · cases closes

theorem snoc_eq_append_cons {before after : List Bytes} {cut : Bytes}
    (split : kinds ++ [kind] = before ++ cut :: after) :
    (kinds = before ∧ kind = cut) ∨ ∃ after', kinds = before ++ cut :: after' := by
  cases after using List.reverseRecOn with
  | nil =>
    obtain ⟨same, last⟩ := List.append_inj' split rfl
    exact .inl ⟨same, List.head_eq_of_cons_eq last⟩
  | append_singleton after last =>
    rw [← List.cons_append, ← List.append_assoc] at split
    exact .inr ⟨after, (List.append_inj' split rfl).1⟩

theorem Passed.advance {sawMoof' : Bool} {next' : Nat} (passed : Passed initDone kinds sawMoof)
    (advances : passBox initDone kind next sawMoof = .advance next' sawMoof') :
    Passed initDone (kinds ++ [kind]) sawMoof' := by
  unfold passBox at advances
  cases initDone with
  | false =>
    simp only [Bool.not_false, if_true] at advances
    split at advances
    · cases advances
    · rename_i other
      refine ⟨fun _ among => ?_, nofun, nofun⟩
      rw [List.mem_append, List.mem_singleton] at among
      exact among.elim (passed.noMoov rfl) fun last => other last.symm
  | true =>
    simp only [Bool.not_true, Bool.false_eq_true, if_false, Bool.and_eq_true, decide_eq_true_eq]
      at advances
    have seen := passed.seen rfl
    have noFragment := passed.noFragment rfl
    split at advances
    · rename_i isMoof
      cases advances
      refine ⟨nofun, fun _ => ?_, fun _ before after cut => ?_⟩
      · simp only [isMoof, List.mem_append, List.mem_singleton, or_true]
      · obtain ⟨-, last⟩ | ⟨after', earlier⟩ := snoc_eq_append_cons cut
        · rw [isMoof] at last
          exact absurd last (by decide)
        · exact noFragment before after' earlier
    · rename_i notMoof
      split at advances
      · cases advances
      · rename_i notLast
        cases advances
        refine ⟨nofun, fun _ => ?_, fun _ before after cut => ?_⟩
        · rw [List.mem_append, List.mem_singleton, seen]
          exact (or_iff_left fun last => notMoof last.symm).symm
        · obtain ⟨rfl, last⟩ | ⟨after', earlier⟩ := snoc_eq_append_cons cut
          · exact fun among => notLast ⟨last, seen.mpr among⟩
          · exact noFragment before after' earlier

theorem walk_closed {turns cursor : Nat} (boxes : Boxes (buf.take cursor) kinds)
    (passed : Passed initDone kinds sawMoof)
    (closed : walk initDone buf turns cursor sawMoof = some (some next)) :
    cursor < next ∧ next ≤ buf.length ∧
      ∃ kinds, Boxes (buf.take next) kinds ∧ ChunkKinds (!initDone) kinds := by
  induction turns generalizing cursor sawMoof kinds with
  | zero => cases closed
  | succ turns ih =>
    rw [walk] at closed
    obtain waits | ⟨size, kind, box⟩ := turn_cases initDone buf cursor sawMoof
    · rw [waits] at closed
      cases closed
    · rw [box.turn] at closed
      obtain closes | ⟨sawMoof', advances⟩ :=
        passBox_cases initDone kind (cursor + size) sawMoof
      · rw [closes] at closed
        cases closed
        exact ⟨box.cursor_lt, box.inside, _, box.boxes boxes, passed.close closes⟩
      · rw [advances] at closed
        obtain ⟨further, rest⟩ := ih (box.boxes boxes) (passed.advance advances) closed
        exact ⟨Nat.lt_trans box.cursor_lt further, rest⟩

theorem walk_of_chunkEnd (found : chunkEnd initDone buf = some next) :
    walk initDone buf (buf.length + 1) 0 false = some (some next) :=
  Option.join_eq_some_iff.mp found

theorem chunkEnd_closed (found : chunkEnd initDone buf = some next) : 0 < next ∧ next ≤ buf.length ∧
      ∃ kinds, Boxes (buf.take next) kinds ∧ ChunkKinds (!initDone) kinds :=
  walk_closed .nil (.nil initDone) (walk_of_chunkEnd found)

theorem chunkEnd_append (found : chunkEnd initDone buf = some next) (more : Bytes) :
    chunkEnd initDone (buf ++ more) = some next := by
  have enough : buf.length + 1 ≤ (buf ++ more).length + 1 := by
    rw [List.length_append]
    omega
  exact Option.join_eq_some_iff.mpr (walk_append (walk_of_chunkEnd found) more enough)

variable (toMs : Nat → Nat → Nat)

theorem nextChunk_some {parser parser' : Parser} {rest : Bytes} {chunk : Chunk}
    (found : nextChunk toMs parser buf = some (chunk, rest, parser')) :
    ∃ next, chunkEnd parser.initDone buf = some next ∧ rest = buf.drop next ∧
      (chunk, parser') = emit toMs parser (buf.take next) := by
  obtain ⟨next, closed, taken⟩ := Option.map_eq_some_iff.mp found
  cases taken
  exact ⟨next, closed, rfl, rfl⟩

theorem steady_nextChunk : Steady (nextChunk toMs) where
  shrinks := fun found => by
    obtain ⟨next, closed, rfl, -⟩ := nextChunk_some toMs found
    obtain ⟨nonempty, inside, -⟩ := chunkEnd_closed closed
    rw [List.length_drop]
    omega
  append := fun {parser buf chunk rest parser'} found more => by
    obtain ⟨next, closed, rfl, emitted⟩ := nextChunk_some toMs found
    obtain ⟨-, inside, -⟩ := chunkEnd_closed closed
    unfold nextChunk
    rw [chunkEnd_append closed more, Option.map_some, List.take_append_of_le_length inside,
      List.drop_append_of_le_length inside, ← emitted]

theorem nextChunk_spec {parser parser' : Parser} {rest : Bytes} {chunk : Chunk}
    (found : nextChunk toMs parser buf = some (chunk, rest, parser')) :
    chunk.bytes ++ rest = buf ∧ chunk.seq = parser.seqCounter ∧
      chunk.isInit = !parser.initDone ∧ parser'.initDone = true ∧
      parser'.seqCounter = parser.seqCounter + 1 ∧
      ∃ kinds, Boxes chunk.bytes kinds ∧ ChunkKinds chunk.isInit kinds := by
  obtain ⟨next, closed, rfl, emitted⟩ := nextChunk_some toMs found
  obtain ⟨-, -, shape⟩ := chunkEnd_closed closed
  unfold emit at emitted
  split at emitted
  · rename_i done
    cases emitted
    rw [done] at shape
    refine ⟨List.take_append_drop .., rfl, ?_, done, rfl, shape⟩
    rw [done]
    rfl
  · rename_i fresh
    have fresh := Bool.eq_false_iff.mpr fresh
    cases emitted
    rw [fresh] at shape
    refine ⟨List.take_append_drop .., rfl, ?_, rfl, rfl, shape⟩
    rw [fresh]
    rfl

theorem drain_bytes (parser : Parser) (buf : Bytes) :
    ((drain (nextChunk toMs) parser buf).items.map Chunk.bytes).flatten ++
      (drain (nextChunk toMs) parser buf).rest = buf := by
  have steady := steady_nextChunk toMs
  induction parser, buf using steady.drain_induct with
  | waits parser buf waits =>
    rw [Steady.drain_of_none waits]
    rfl
  | takes parser buf chunk rest parser' found ih =>
    have whole := (nextChunk_spec toMs found).1
    rw [steady.drain_of_some found]
    refine Eq.trans ?_ whole
    rw [Drained.prepend, List.map_append, List.flatten_append, List.map_singleton,
      List.flatten_singleton, List.append_assoc, ih]

/-- The first chunk is the init segment if that is still to come; the others are fragments. -/
theorem drain_chunk (parser : Parser) (buf : Bytes) {i : Nat} {chunk : Chunk}
    (at_ : (drain (nextChunk toMs) parser buf).items[i]? = some chunk) :
    chunk.seq = parser.seqCounter + UInt32.ofNat i ∧
      chunk.isInit = (!parser.initDone && decide (i = 0)) ∧
      ∃ kinds, Boxes chunk.bytes kinds ∧ ChunkKinds chunk.isInit kinds := by
  have steady := steady_nextChunk toMs
  induction parser, buf using steady.drain_induct generalizing i with
  | waits parser buf waits =>
    rw [Steady.drain_of_none waits] at at_
    cases at_
  | takes parser buf first rest parser' found ih =>
    obtain ⟨-, seq, isInit, done, counter, shape⟩ := nextChunk_spec toMs found
    rw [steady.drain_of_some found] at at_
    cases i with
    | zero =>
      cases Option.some.inj at_
      refine ⟨?_, ?_, shape⟩
      · rw [seq]
        exact (UInt32.add_zero _).symm
      · rw [isInit, decide_eq_true rfl, Bool.and_true]
    | succ i =>
      obtain ⟨seq', isInit', shape'⟩ := ih at_
      refine ⟨?_, ?_, shape'⟩
      · rw [seq', counter, UInt32.ofNat_add, UInt32.add_comm (UInt32.ofNat i), UInt32.add_assoc]
        rfl
      · rw [isInit', done, decide_eq_false (Nat.succ_ne_zero i), Bool.and_false]
        rfl

/-- The chunks of a stream depend on its bytes alone, not on how they are read: they are the stream's
beginning, cut behind its first `moov` and behind the first `mdat` after a `moof` each time, and are
numbered one by one. The parser's loop ends on every buffer. -/
theorem chunks_of_stream (seqCounter : UInt32) (parts : List Bytes) :
    (feedAll toMs seqCounter parts).items = (feedAll toMs seqCounter [parts.flatten]).items ∧
      ((feedAll toMs seqCounter parts).items.map Chunk.bytes).flatten <+: parts.flatten ∧
      (∀ i chunk, (feedAll toMs seqCounter parts).items[i]? = some chunk →
        chunk.seq = seqCounter + UInt32.ofNat i ∧ chunk.isInit = decide (i = 0) ∧
        ∃ kinds, Boxes chunk.bytes kinds ∧ ChunkKinds chunk.isInit kinds) ∧
      ∀ (parser : Parser) (buf : Bytes),
        (walk parser.initDone buf (buf.length + 1) 0 false).isSome := by
  have steady := steady_nextChunk toMs
  have whole (parts : List Bytes) : feedAll toMs seqCounter parts =
      drain (nextChunk toMs) (new seqCounter) parts.flatten :=
    steady.feedAll_eq (steady.next_nil _) parts
  refine ⟨?_, ?_, fun i chunk at_ => ?_, fun parser buf => ?_⟩
  · rw [whole, whole, List.flatten_singleton]
  · rw [whole]
    exact ⟨_, drain_bytes toMs (new seqCounter) parts.flatten⟩
  · rw [whole] at at_
    exact drain_chunk toMs (new seqCounter) parts.flatten at_
  · exact walk_isSome parser.initDone buf (Nat.zero_le _) (by omega) false

end Tomb.Grimoire.Radio.BoxParser
