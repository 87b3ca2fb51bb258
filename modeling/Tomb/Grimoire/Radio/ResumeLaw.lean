import Tomb.Grimoire.Radio.ResumePoint

/-! A resume is sound just if the hinted offset does not take the position beyond a word, and no hint
points behind the last chunk that was sent. -/
namespace Tomb.Grimoire.Radio.Resume
open Tomb.Lib

section Index

def endOf (base : UInt64) (sent : List (Nat × UInt64)) : UInt64 :=
  sent.foldl (fun start chunk => start + chunk.2) base

def entriesOf (base : UInt64) : List (Nat × UInt64) → List (Nat × UInt64)
  | [] => []
  | (seq, durationMs) :: rest => (seq, base) :: entriesOf (base + durationMs) rest

def startOf (base : UInt64) (sent : List (Nat × UInt64)) (idx : Nat) : Nat :=
  base.toNat + ((sent.take idx).map (·.2.toNat)).sum

variable {base : UInt64} {sent : List (Nat × UInt64)}

theorem endOf_append (seq : Nat) (durationMs : UInt64) :
    endOf base (sent ++ [(seq, durationMs)]) = endOf base sent + durationMs := by
  rw [endOf, List.foldl_append]
  rfl

theorem entriesOf_append (seq : Nat) (durationMs : UInt64) :
    entriesOf base (sent ++ [(seq, durationMs)]) =
      entriesOf base sent ++ [(seq, endOf base sent)] := by
  induction sent generalizing base with
  | nil => rfl
  | cons chunk rest ih => exact congrArg _ ih

theorem getElem?_entriesOf (idx : Nat) :
    (entriesOf base sent)[idx]? =
      sent[idx]?.map fun chunk => (chunk.1, endOf base (sent.take idx)) := by
  induction sent generalizing base idx with
  | nil => rfl
  | cons chunk rest ih =>
    cases idx with
    | zero => rfl
    | succ idx => exact ih idx

theorem toNat_endOf (idx : Nat) :
    (endOf base (sent.take idx)).toNat = startOf base sent idx % 2 ^ 64 := by
  unfold startOf
  generalize sent.take idx = chunks
  induction chunks generalizing base with
  | nil =>
    rw [List.map_nil, List.sum_nil, Nat.add_zero, Nat.mod_eq_of_lt base.toNat_lt]
    rfl
  | cons chunk rest ih =>
    have step : endOf base (chunk :: rest) = endOf (base + chunk.2) rest := rfl
    rw [step, ih, UInt64.toNat_add, List.map_cons, List.sum_cons]
    omega

theorem toNat_min (a b : UInt64) : (min a b).toNat = min a.toNat b.toNat := by
  have cases : min a b = if a ≤ b then a else b := rfl
  rw [cases]
  split
  · rename_i le
    exact (Nat.min_eq_left (UInt64.le_iff_toNat_le.mp le)).symm
  · rename_i more
    rw [UInt64.le_iff_toNat_le] at more
    exact (Nat.min_eq_right (by omega)).symm

theorem toNat_max (a b : UInt64) : (max a b).toNat = max a.toNat b.toNat := by
  have cases : max a b = if a ≤ b then b else a := rfl
  rw [cases]
  split
  · rename_i le
    exact (Nat.max_eq_right (UInt64.le_iff_toNat_le.mp le)).symm
  · rename_i more
    rw [UInt64.le_iff_toNat_le] at more
    exact (Nat.max_eq_left (by omega)).symm

theorem startOf_le {idx next : Nat} (le : idx ≤ next) :
    startOf base sent idx ≤ startOf base sent next := by
  unfold startOf
  apply Nat.add_le_add_left
  have initial : sent.take idx <+: sent.take next := List.take_prefix_take_left le
  obtain ⟨more, joined⟩ := initial
  rw [← joined, List.map_append, List.sum_append]
  exact Nat.le_add_right _ _

end Index

section Sound

variable {F : Type} (seconds : Seconds F)

/-- The index has the chunks of the current track, and the ring the last of them. -/
structure Tracked (s : Station F) : Prop where
  index : ∀ index ∈ s.resumeIndex, index.initSeq = s.initSeq ∧
    index.entries = entriesOf s.baseMs s.sent ∧ index.nextStartMs = endOf s.baseMs s.sent
  sorted : (s.sent.map Prod.fst).Pairwise (· < ·)
  ring : s.ring <:+ s.sent.map Prod.fst

def StationOp.Increasing : StationOp F → Station F → Prop
  | .nextChunk seq _, s => ∀ chunk ∈ s.sent, chunk.1 < seq
  | _, _ => True

instance (s : Station F) : (op : StationOp F) → Decidable (op.Increasing s)
  | .nextChunk seq _ => inferInstanceAs (Decidable (∀ chunk ∈ s.sent, chunk.1 < seq))
  | .startTrack _ _ _ _ | .announceIdle | .abandonRewound | .setAwaiting _ | .setListeners _
  | .prepareResume _ | .takePendingResume | .giveUpRewind => .isTrue trivial

variable {seconds} {s : Station F}

theorem Tracked.of_same {s' : Station F} (tracked : Tracked s)
    (index : s'.resumeIndex = s.resumeIndex) (init : s'.initSeq = s.initSeq)
    (base : s'.baseMs = s.baseMs) (sent : s'.sent = s.sent) (ring : s'.ring = s.ring) :
    Tracked s' := by
  refine ⟨?_, ?_, ?_⟩
  · rw [index, init, base, sent]
    exact tracked.index
  · rw [sent]
    exact tracked.sorted
  · rw [ring, sent]
    exact tracked.ring

theorem Tracked.clearTrack (tracked : Tracked s) : Tracked s.clearTrack :=
  ⟨tracked.index, tracked.sorted, List.nil_suffix⟩

variable {seq : Nat}

theorem Tracked.nextChunk (durationMs : UInt64) (tracked : Tracked s)
    (later : ∀ chunk ∈ s.sent, chunk.1 < seq) : Tracked (s.nextChunk seq durationMs) := by
  obtain ⟨index, sorted, ring⟩ := tracked
  refine ⟨fun next member => ?_, ?_, ?_⟩
  · obtain ⟨old, known, rfl⟩ := Option.map_eq_some_iff.mp member
    obtain ⟨init, entries, ends⟩ := index old known
    rw [if_pos init]
    refine ⟨init, ?_, ?_⟩
    · change old.entries ++ [(seq, old.nextStartMs)] = entriesOf s.baseMs (s.sent ++ [_])
      rw [entriesOf_append, entries, ends]
    · change old.nextStartMs + durationMs = endOf s.baseMs (s.sent ++ [_])
      rw [endOf_append, ends]
  · change ((s.sent ++ [(seq, durationMs)]).map Prod.fst).Pairwise (· < ·)
    rw [List.map_append, List.pairwise_append]
    refine ⟨sorted, List.pairwise_singleton _ _, fun earlier member last single => ?_⟩
    obtain ⟨chunk, there, rfl⟩ := List.mem_map.mp member
    rw [List.mem_singleton.mp single]
    exact later chunk there
  · have longer : s.ring ++ [seq] <:+ (s.sent ++ [(seq, durationMs)]).map Prod.fst := by
      obtain ⟨before, joined⟩ := ring
      refine ⟨before, ?_⟩
      rw [List.map_append, ← joined, List.append_assoc]
      rfl
    unfold Station.nextChunk
    dsimp only
    split
    · exact (List.tail_suffix _).trans longer
    · exact longer

theorem Tracked.step (op : StationOp F) (s : Station F) (increasing : op.Increasing s)
    (tracked : Tracked s) : Tracked (Station.step seconds op s) := by
  cases op with
  | startTrack initSeq kind itemId startPositionSeconds =>
    refine ⟨fun index member => ?_, List.Pairwise.nil, List.nil_suffix⟩
    rw [← Option.some.inj member]
    exact ⟨rfl, rfl, rfl⟩
  | nextChunk seq durationMs => exact tracked.nextChunk durationMs increasing
  | announceIdle => exact tracked.clearTrack
  | abandonRewound =>
    unfold Station.step
    dsimp only
    split
    · exact tracked.clearTrack.of_same rfl rfl rfl rfl rfl
    · exact tracked
  | setAwaiting awaitingListener => exact tracked.of_same rfl rfl rfl rfl rfl
  | setListeners listenerCount => exact tracked.of_same rfl rfl rfl rfl rfl
  | prepareResume hint =>
    unfold Station.step Station.prepareResume
    dsimp only
    split
    · exact tracked
    · split
      · exact tracked
      · exact tracked
      · unfold Station.setPendingResumeIfIdle
        dsimp only
        split
        · exact tracked.of_same rfl rfl rfl rfl rfl
        · exact tracked
      · exact tracked.of_same rfl rfl rfl rfl rfl
  | takePendingResume => exact tracked.of_same rfl rfl rfl rfl rfl
  | giveUpRewind =>
    unfold Station.step
    dsimp only
    split
    · exact tracked.of_same rfl rfl rfl rfl rfl
    · exact tracked

/-- The hint is about the current track, and names the chunk at this place. -/
def Hints (s : Station F) (hint : ResumeHint F) (idx : Nat) : Prop :=
  ∃ index ∈ s.resumeIndex, index.isHinted hint = true ∧
    ∃ chunk ∈ s.sent[idx]?, hint.seq = some chunk.1

def positionOf (s : Station F) (hint : ResumeHint F) : Option UInt64 :=
  s.resumeIndex.bind (·.positionMs hint)

theorem keys_entriesOf (base : UInt64) (sent : List (Nat × UInt64)) :
    (entriesOf base sent).map Prod.fst = sent.map Prod.fst := by
  induction sent generalizing base with
  | nil => rfl
  | cons chunk rest ih => exact congrArg (chunk.1 :: ·) (ih _)

theorem search_eq_some_iff (tracked : Tracked s) {index : TrackSeqIndex}
    (known : index ∈ s.resumeIndex) {idx : Nat} :
    index.search seq = some idx ↔ ∃ chunk ∈ s.sent[idx]?, chunk.1 = seq := by
  have keys : index.search seq = (s.sent.map Prod.fst).findIdx? (· = seq) := by
    rw [TrackSeqIndex.search, (tracked.index index known).2.1, ← keys_entriesOf s.baseMs s.sent,
      List.findIdx?_map]
    rfl
  rw [keys, List.findIdx?_eq_some_iff_getElem]
  constructor
  · rintro ⟨inside, same, -⟩
    rw [List.length_map] at inside
    refine ⟨s.sent[idx], List.getElem?_eq_getElem inside, ?_⟩
    rw [List.getElem_map] at same
    exact of_decide_eq_true same
  · rintro ⟨chunk, there, rfl⟩
    obtain ⟨inside, rfl⟩ := List.getElem?_eq_some_iff.mp there
    have inside' : idx < (s.sent.map Prod.fst).length := by rwa [List.length_map]
    refine ⟨inside', ?_, fun earlier before => ?_⟩
    · rw [List.getElem_map]
      exact decide_eq_true rfl
    · have less := List.pairwise_iff_getElem.mp tracked.sorted earlier idx (by omega) inside' before
      rw [List.getElem_map, List.getElem_map] at less
      rw [List.getElem_map, decide_eq_true_eq]
      exact Nat.ne_of_lt less

theorem chunkAt_eq (tracked : Tracked s) {index : TrackSeqIndex} (known : index ∈ s.resumeIndex)
    {idx : Nat} (inside : idx < s.sent.length) : index.chunkAt idx =
      (endOf s.baseMs (s.sent.take idx), endOf s.baseMs (s.sent.take (idx + 1))) := by
  obtain ⟨-, entries, ends⟩ := tracked.index index known
  unfold TrackSeqIndex.chunkAt
  rw [entries, ends, getElem?_entriesOf, getElem?_entriesOf, List.getElem?_eq_getElem inside]
  by_cases last : idx + 1 < s.sent.length
  · rw [List.getElem?_eq_getElem last]
    rfl
  · rw [List.getElem?_eq_none (by omega), List.take_of_length_le (by omega : s.sent.length ≤ idx + 1)]
    rfl

variable {hint : ResumeHint F}

theorem positionOf_eq_some_iff (tracked : Tracked s) {p : UInt64} :
    positionOf s hint = some p ↔ ∃ idx, Hints s hint idx ∧
      p = min (endOf s.baseMs (s.sent.take idx) + hint.offsetMs.getD 0)
        (max (endOf s.baseMs (s.sent.take (idx + 1))) (endOf s.baseMs (s.sent.take idx))) := by
  unfold positionOf Hints
  constructor
  · intro position
    obtain ⟨index, known, found⟩ := Option.bind_eq_some_iff.mp position
    unfold TrackSeqIndex.positionMs at found
    split at found
    · rename_i hinted
      obtain ⟨seq, named, searched⟩ := Option.bind_eq_some_iff.mp found
      obtain ⟨idx, place, answer⟩ := Option.bind_eq_some_iff.mp searched
      obtain ⟨chunk, there, rfl⟩ := (search_eq_some_iff tracked known).mp place
      have inside : idx < s.sent.length := (List.getElem?_eq_some_iff.mp there).1
      rw [chunkAt_eq tracked known inside] at answer
      exact ⟨idx, ⟨index, known, hinted, chunk, there, named⟩, (Option.some.inj answer).symm⟩
    · cases found
  · rintro ⟨idx, ⟨index, known, hinted, chunk, there, named⟩, rfl⟩
    have inside : idx < s.sent.length := (List.getElem?_eq_some_iff.mp there).1
    have place := (search_eq_some_iff tracked known).mpr ⟨chunk, there, rfl⟩
    refine Option.bind_eq_some_iff.mpr ⟨index, known, ?_⟩
    unfold TrackSeqIndex.positionMs
    rw [if_pos hinted]
    refine Option.bind_eq_some_iff.mpr ⟨chunk.1, named,
      Option.bind_eq_some_iff.mpr ⟨idx, place, ?_⟩⟩
    rw [chunkAt_eq tracked known inside]
    rfl

theorem between_iff {base : UInt64} {sent : List (Nat × UInt64)} {idx : Nat} {offset p : UInt64}
    (position : p = min (endOf base (sent.take idx) + offset)
      (max (endOf base (sent.take (idx + 1))) (endOf base (sent.take idx)))) :
    startOf base sent idx ≤ p.toNat ∧ p.toNat ≤ startOf base sent (idx + 1) ↔
      startOf base sent idx + offset.toNat < 2 ^ 64 := by
  have word : p.toNat < 2 ^ 64 := p.toNat_lt
  have order : startOf base sent idx ≤ startOf base sent (idx + 1) := startOf_le (Nat.le_succ idx)
  have value := congrArg UInt64.toNat position
  rw [toNat_min, toNat_max, UInt64.toNat_add, toNat_endOf, toNat_endOf] at value
  have small : offset.toNat < 2 ^ 64 := offset.toNat_lt
  generalize startOf base sent idx = start at *
  generalize startOf base sent (idx + 1) = next at *
  omega

/-- What a resume promises: a position within its chunk, a chunk that is in the ring, and a rewind
into what the track has sent. -/
structure Sound (seconds : Seconds F) (s : Station F) (hint : ResumeHint F) : Prop where
  position : ∀ idx, Hints s hint idx → ∀ p, positionOf s hint = some p →
    startOf s.baseMs s.sent idx ≤ p.toNat ∧ p.toNat ≤ startOf s.baseMs s.sent (idx + 1)
  ring : ∀ seq, planResume seconds (some hint) s.resumeIndex s.snapshot = .fromRing seq →
    seq ∈ s.ring
  rewind : ∀ position, planResume seconds (some hint) s.resumeIndex s.snapshot = .rewind position →
    ∃ ms : UInt64, position = seconds.ofMs ms ∧ s.baseMs.toNat ≤ ms.toNat ∧
      ms.toNat ≤ startOf s.baseMs s.sent s.sent.length

/-- The station is frozen on the hinted track, with the hinted chunk not before the ring. -/
def FrozenOn (s : Station F) (hint : ResumeHint F) (seq : Nat) : Prop :=
  s.awaitingListener = false ∧ s.listenerCount = 0 ∧ s.currentInit = true ∧
    hint.initSeq = some s.initSeq ∧ hint.seq = some seq ∧ ∃ oldest ∈ s.ring.head?, oldest ≤ seq

/-- The offset does not take the position beyond a word, and a chunk that is taken from the ring was
sent. -/
structure InRange (s : Station F) (hint : ResumeHint F) : Prop where
  offset : ∀ idx, Hints s hint idx →
    startOf s.baseMs s.sent idx + (hint.offsetMs.getD 0).toNat < 2 ^ 64
  seq : ∀ seq, FrozenOn s hint seq → seq ∈ s.sent.map Prod.fst

theorem fromRing_iff : planResume seconds (some hint) s.resumeIndex s.snapshot = .fromRing seq ↔
      FrozenOn s hint seq := by
  have any : s.ring.head?.any (· ≤ seq) = true ↔ ∃ oldest ∈ s.ring.head?, oldest ≤ seq := by
    rw [Option.any_eq_true]
    simp only [Option.mem_def, decide_eq_true_eq]
  have published : s.snapshot.currentInitSeq = some s.initSeq ↔ s.currentInit = true := by
    unfold Station.snapshot
    cases s.currentInit with
    | true => exact iff_of_true rfl rfl
    | false => exact iff_of_false (fun none => (nomatch none)) Bool.false_ne_true
  unfold planResume FrozenOn
  rw [← any]
  dsimp only
  constructor
  · intro plan
    split at plan
    · cases plan
    · rename_i awake
      split at plan
      · cases plan
      · rename_i alone
        split at plan
        · rename_i hintInit hintSeq init named
          split at plan
          · cases plan
          · rename_i current
            split at plan
            · rename_i first
              injection plan with same
              subst same
              have shown : (if s.currentInit = true then some s.initSeq else none) =
                  some hintInit := not_not.mp current
              split at shown
              · rename_i has
                rw [Option.some.inj shown]
                exact ⟨Bool.eq_false_iff.mpr awake, Nat.eq_zero_of_not_pos alone, has, init, named,
                  first⟩
              · cases shown
            · split at plan
              · cases plan
              · cases plan
        · cases plan
  · rintro ⟨awake, alone, has, init, named, first⟩
    have shown := published.mpr has
    rw [init, named, if_neg (by rw [Station.snapshot, awake]; exact Bool.false_ne_true),
      if_neg (by rw [Station.snapshot, alone]; exact Nat.lt_irrefl 0)]
    dsimp only
    rw [if_neg (not_not.mpr shown), if_pos]
    exact first

theorem positionOf_of_rewind {position : F}
    (plan : planResume seconds (some hint) s.resumeIndex s.snapshot = .rewind position) :
    ∃ ms, position = seconds.ofMs ms ∧ positionOf s hint = some ms := by
  unfold planResume at plan
  dsimp only at plan
  split at plan
  · cases plan
  · split at plan
    · cases plan
    · split at plan
      · split at plan
        · cases plan
        · split at plan
          · cases plan
          · split at plan
            · rename_i ms exact
              injection plan with same
              exact ⟨ms, same.symm, exact⟩
            · cases plan
      · cases plan

theorem mem_ring_iff (tracked : Tracked s) {oldest : Nat} (first : oldest ∈ s.ring.head?)
    (le : oldest ≤ seq) : seq ∈ s.ring ↔ seq ∈ s.sent.map Prod.fst := by
  obtain ⟨before, joined⟩ := tracked.ring
  rw [← joined, List.mem_append]
  refine ⟨.inr, fun member => member.resolve_left fun earlier => ?_⟩
  have sorted := tracked.sorted
  rw [← joined] at sorted
  have less := (List.pairwise_append.mp sorted).2.2 seq earlier oldest
    (List.mem_of_mem_head? first)
  omega

theorem sound_iff (seconds : Seconds F) (tracked : Tracked s) (hint : ResumeHint F) :
    Sound seconds s hint ↔ InRange s hint := by
  constructor
  · rintro ⟨position, ring, -⟩
    refine ⟨fun idx hints => ?_, fun seq frozen => ?_⟩
    · have found := (positionOf_eq_some_iff tracked).mpr ⟨idx, hints, rfl⟩
      exact (between_iff rfl).mp (position idx hints _ found)
    · obtain ⟨-, -, -, -, -, oldest, first, le⟩ := id frozen
      exact (mem_ring_iff tracked first le).mp (ring seq (fromRing_iff.mpr frozen))
  · rintro ⟨offset, sent⟩
    have between : ∀ idx, Hints s hint idx → ∀ p, positionOf s hint = some p →
        startOf s.baseMs s.sent idx ≤ p.toNat ∧
          p.toNat ≤ startOf s.baseMs s.sent (idx + 1) := by
      intro idx hints p position
      obtain ⟨other, hints', value⟩ := (positionOf_eq_some_iff tracked).mp position
      have same : other = idx := by
        obtain ⟨index, known, -, chunk, there, named⟩ := hints
        obtain ⟨-, -, -, chunk', there', named'⟩ := hints'
        have one : chunk'.1 = chunk.1 := Option.some.inj (named'.symm.trans named)
        have place := (search_eq_some_iff tracked known).mpr ⟨chunk, there, rfl⟩
        have place' := (search_eq_some_iff tracked known).mpr ⟨chunk', there', one⟩
        exact Option.some.inj (place'.symm.trans place)
      rw [same] at value
      exact (between_iff value).mpr (offset idx hints)
    refine ⟨between, fun seq plan => ?_, fun position plan => ?_⟩
    · have frozen := fromRing_iff.mp plan
      obtain ⟨-, -, -, -, -, oldest, first, le⟩ := id frozen
      exact (mem_ring_iff tracked first le).mpr (sent seq frozen)
    · obtain ⟨ms, same, found⟩ := positionOf_of_rewind plan
      obtain ⟨idx, hints, -⟩ := (positionOf_eq_some_iff tracked).mp found
      obtain ⟨low, high⟩ := between idx hints ms found
      refine ⟨ms, same, le_trans ?_ low, le_trans high ?_⟩
      · exact Nat.le_add_right _ _
      · obtain ⟨index, -, -, chunk, there, -⟩ := hints
        exact startOf_le (List.getElem?_eq_some_iff.mp there).1

theorem Tracked.new (ringCapacity : Nat) : Tracked ({ ringCapacity } : Station F) :=
  ⟨fun _ none => (nomatch none), List.Pairwise.nil, List.nil_suffix⟩

/-- In every run in which the seqs of a track increase, a resume is sound just if the hint is in
range; and the seq that it answers is one that its plan takes from the ring. -/
theorem resume_sound_iff (seconds : Seconds F) (ringCapacity : Nat) (ops : List (StationOp F))
    (increasing : Meets (Station.step seconds) StationOp.Increasing ops { ringCapacity })
    (hint : ResumeHint F) :
    let s := runAll (Station.step seconds) ops { ringCapacity }
    (Sound seconds s hint ↔ InRange s hint) ∧
      ∀ seq, (s.prepareResume seconds (some hint)).1 = some seq →
        planResume seconds (some hint) s.resumeIndex s.snapshot = .fromRing seq := by
  refine ⟨sound_iff seconds ?_ hint, fun seq answer => ?_⟩
  · exact Meets.keeps (fun op s fits tracked => tracked.step op s fits) increasing
      (Tracked.new ringCapacity)
  · unfold Station.prepareResume at answer
    dsimp only at answer
    split at answer
    · cases answer
    · rename_i other plan
      rw [plan, Option.some.inj answer]
    · cases answer
    · cases answer

end Sound

def thousandths : Seconds Int where
  ofMs ms := ms.toNat
  toMs n := if 0 < n then some (UInt64.ofNat n.toNat) else none
  nonneg n := max n 0

/-- A track that begins at two minutes and has sent three chunks, with a ring for two of them. -/
def threeChunks : List (StationOp Int) :=
  [.startTrack 10 .video "v1" (some 120500), .nextChunk 11 3000, .nextChunk 12 3000,
    .nextChunk 13 3000]

def frozen : Station Int := runAll (Station.step thousandths) threeChunks { ringCapacity := 2 }

def pausedAt (seq : Nat) (offsetMs : UInt64) : ResumeHint Int :=
  ⟨.video, "v1", 0, some 10, some seq, some offsetMs⟩

theorem paused_chunk_resumes :
    Sound thousandths frozen (pausedAt 11 500) ∧
      planResume thousandths (some (pausedAt 11 500)) frozen.resumeIndex frozen.snapshot =
        .rewind 121000 := by
  refine ⟨?_, by decide⟩
  have law := resume_sound_iff thousandths 2 threeChunks (by decide) (pausedAt 11 500)
  apply law.1.mpr
  constructor
  · rintro idx ⟨-, -, -, chunk, there, -⟩
    have short : startOf frozen.baseMs frozen.sent idx ≤ startOf frozen.baseMs frozen.sent 3 :=
      startOf_le (List.getElem?_eq_some_iff.mp there).1.le
    have total : startOf frozen.baseMs frozen.sent 3 = 129500 := by decide
    exact lt_of_le_of_lt (Nat.add_le_add_right (short.trans_eq total) _) (by decide)
  · rintro seq ⟨-, -, -, -, named, -⟩
    rw [← Option.some.inj named]
    decide

/-- An offset that is too large goes back before the chunk, and even before what the track has sent;
and a chunk that was never sent is taken from the ring. -/
theorem hint_out_of_range :
    positionOf frozen (pausedAt 12 (0 - 120500)) = some 3000 ∧
      startOf frozen.baseMs frozen.sent 1 = 123500 ∧
      planResume thousandths (some (pausedAt 11 (0 - 120500))) frozen.resumeIndex
        frozen.snapshot = .rewind 0 ∧
      planResume thousandths (some (pausedAt 99 0)) frozen.resumeIndex frozen.snapshot =
        .fromRing 99 ∧
      ¬Sound thousandths frozen (pausedAt 12 (0 - 120500)) ∧
      ¬Sound thousandths frozen (pausedAt 99 0) := by
  refine ⟨by decide, by decide, by decide, by decide, fun sound => ?_, fun sound => ?_⟩
  · have hints : Hints frozen (pausedAt 12 (0 - 120500)) 1 :=
      ⟨_, rfl, by decide, (12, 3000), by decide, rfl⟩
    exact absurd (sound.position 1 hints 3000 (by decide)).1 (by decide)
  · exact absurd (sound.ring 99 (by decide)) (by decide)

end Tomb.Grimoire.Radio.Resume
