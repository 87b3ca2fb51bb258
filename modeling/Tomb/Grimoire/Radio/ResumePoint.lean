import Tomb.Lib.Runs

/-! Where a paused listener picks a track up again: the index of the track's chunks, and the plan that
is made of the listener's hint. A position in seconds is of some type `F`; the index has milliseconds,
in words of 64 bits. -/
namespace Tomb.Grimoire.Radio.Resume
open Tomb.Lib

inductive RadioItemKind where
  | song
  | video
  deriving DecidableEq

structure Seconds (F : Type) where
  ofMs : UInt64 → F
  /-- The milliseconds of a time that is finite and positive, rounded. -/
  toMs : F → Option UInt64
  /-- The time, or zero if it is negative. -/
  nonneg : F → F

structure ResumeHint (F : Type) where
  kind : RadioItemKind
  itemId : String
  positionSeconds : F
  (initSeq seq : Option Nat)
  offsetMs : Option UInt64

structure TrackSeqIndex where
  initSeq : Nat
  kind : RadioItemKind
  itemId : String
  entries : List (Nat × UInt64)
  nextStartMs : UInt64

section Plan

variable {F : Type} (seconds : Seconds F)

namespace TrackSeqIndex

def new (initSeq : Nat) (kind : RadioItemKind) (itemId : String)
    (startPositionSeconds : Option F) : TrackSeqIndex :=
  ⟨initSeq, kind, itemId, [], (startPositionSeconds.bind seconds.toMs).getD 0⟩

def record (seq : Nat) (durationMs : UInt64) (index : TrackSeqIndex) : TrackSeqIndex :=
  { index with
    entries := index.entries ++ [(seq, index.nextStartMs)]
    nextStartMs := index.nextStartMs + durationMs }

def isHinted (index : TrackSeqIndex) (hint : ResumeHint F) : Bool :=
  hint.initSeq = some index.initSeq && hint.kind = index.kind && hint.itemId = index.itemId

/-- The entries are in the order of their seqs, so that the binary search finds the one there is. -/
def search (index : TrackSeqIndex) (seq : Nat) : Option Nat :=
  index.entries.findIdx? (·.1 = seq)

def chunkAt (index : TrackSeqIndex) (idx : Nat) : UInt64 × UInt64 :=
  let start := (index.entries[idx]?.map Prod.snd).getD index.nextStartMs
  (start, (index.entries[idx + 1]?.map Prod.snd).getD index.nextStartMs)

def positionMs (index : TrackSeqIndex) (hint : ResumeHint F) : Option UInt64 :=
  if index.isHinted hint then do
    let seq ← hint.seq
    let idx ← index.search seq
    let (start, chunkEnd) := index.chunkAt idx
    return min (start + hint.offsetMs.getD 0) (max chunkEnd start)
  else none

end TrackSeqIndex

structure StationSnapshot where
  idle : Bool
  listenerCount : Nat
  (currentInitSeq oldestRingSeq : Option Nat)

inductive ResumePlan (F : Type) where
  | joinLive
  | coldStart (positionSeconds : F)
  | fromRing (seq : Nat)
  | rewind (positionSeconds : F)
  deriving DecidableEq

def planResume (hint : Option (ResumeHint F)) (index : Option TrackSeqIndex)
    (station : StationSnapshot) : ResumePlan F :=
  match hint with
  | none => .joinLive
  | some hint =>
    let exactMs := index.bind (·.positionMs hint)
    if station.idle then
      .coldStart ((exactMs.map seconds.ofMs).getD (seconds.nonneg hint.positionSeconds))
    else if 0 < station.listenerCount then .joinLive
    else
      match hint.initSeq, hint.seq with
      | some hintInit, some hintSeq =>
        if station.currentInitSeq ≠ some hintInit then .joinLive
        else if station.oldestRingSeq.any (· ≤ hintSeq) then .fromRing hintSeq
        else
          match exactMs with
          | some ms => .rewind (seconds.ofMs ms)
          | none => .joinLive
      | _, _ => .joinLive

/-- A broadcaster, as far as a resume sees it. Of a chunk in the ring only its seq is kept. Beside
it is what the current track has sent: where it began, and its chunks with their durations. -/
structure Station (F : Type) where
  currentInit : Bool := false
  initSeq : Nat := 0
  ring : List Nat := []
  ringCapacity : Nat
  awaitingListener : Bool := false
  listenerCount : Nat := 0
  resumeIndex : Option TrackSeqIndex := none
  pendingResume : Option (ResumeHint F) := none
  rewindForInitSeq : Option Nat := none
  baseMs : UInt64 := 0
  sent : List (Nat × UInt64) := []

inductive StationOp (F : Type) where
  | startTrack (initSeq : Nat) (kind : RadioItemKind) (itemId : String)
    (startPositionSeconds : Option F)
  | nextChunk (seq : Nat) (durationMs : UInt64)
  | announceIdle
  | abandonRewound
  | setAwaiting (awaitingListener : Bool)
  | setListeners (listenerCount : Nat)
  | prepareResume (hint : Option (ResumeHint F))
  | takePendingResume
  | giveUpRewind

namespace Station

variable (s : Station F)

def snapshot : StationSnapshot where
  idle := s.awaitingListener
  listenerCount := s.listenerCount
  currentInitSeq := if s.currentInit then some s.initSeq else none
  oldestRingSeq := s.ring.head?

def startTrack (initSeq : Nat) (kind : RadioItemKind) (itemId : String)
    (startPositionSeconds : Option F) : Station F :=
  { s with
    currentInit := true
    initSeq := initSeq
    ring := []
    resumeIndex := some (.new seconds initSeq kind itemId startPositionSeconds)
    baseMs := (startPositionSeconds.bind seconds.toMs).getD 0
    sent := [] }

def nextChunk (seq : Nat) (durationMs : UInt64) : Station F :=
  let ring := s.ring ++ [seq]
  { s with
    ring := if s.ringCapacity < ring.length then ring.tail else ring
    resumeIndex := s.resumeIndex.map fun index =>
      if index.initSeq = s.initSeq then index.record seq durationMs else index
    sent := s.sent ++ [(seq, durationMs)] }

def clearTrack : Station F := { s with currentInit := false, ring := [] }

def setPendingResumeIfIdle (hint : ResumeHint F) : Station F :=
  if s.awaitingListener then { s with pendingResume := some hint } else s

def prepareResume (hint : Option (ResumeHint F)) : Option Nat × Station F :=
  match hint with
  | none => (none, s)
  | some hint =>
    match planResume seconds (some hint) s.resumeIndex s.snapshot with
    | .joinLive => (none, s)
    | .fromRing seq => (some seq, s)
    | .coldStart positionSeconds =>
      (none, s.setPendingResumeIfIdle { hint with positionSeconds := positionSeconds })
    | .rewind positionSeconds =>
      (none, { s with
        pendingResume := some { hint with positionSeconds := positionSeconds }
        rewindForInitSeq := s.snapshot.currentInitSeq })

def step : StationOp F → Station F → Station F
  | .startTrack initSeq kind itemId startPositionSeconds, s =>
    s.startTrack seconds initSeq kind itemId startPositionSeconds
  | .nextChunk seq durationMs, s => s.nextChunk seq durationMs
  | .announceIdle, s => s.clearTrack
  | .abandonRewound, s =>
    if s.rewindForInitSeq = some s.initSeq then { s.clearTrack with rewindForInitSeq := none } else s
  | .setAwaiting awaitingListener, s => { s with awaitingListener := awaitingListener }
  | .setListeners listenerCount, s => { s with listenerCount := listenerCount }
  | .prepareResume hint, s => (s.prepareResume seconds hint).2
  | .takePendingResume, s => { s with rewindForInitSeq := none, pendingResume := none }
  | .giveUpRewind, s =>
    if s.rewindForInitSeq.isSome then { s with rewindForInitSeq := none, pendingResume := none }
    else s

end Station

end Plan

end Tomb.Grimoire.Radio.Resume
