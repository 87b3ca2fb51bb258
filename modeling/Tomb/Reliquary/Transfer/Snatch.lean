import Mathlib.Data.List.Basic
import Tomb.Lib.Pieces
import Tomb.Lib.Runs

/-! A blob is snatched from the first of several peers that can serve it, into memory or to a
writable on disk. The downloads are verified: one that resolves gives the blob, and a chunk carries
the true bytes at its offset, whenever it comes; only the answer of the proxy is checked here. An
attempt that timed out goes on to receive chunks and to write them. Progress and the texts of the
errors are left out, but for whether an error is a cancellation. -/
namespace Tomb.Reliquary.Transfer.Snatching
open Tomb.Lib

inductive Err where
  | cancelled
  | failure
  deriving DecidableEq

structure Job where
  content : List UInt8
  hashBlake3 : List UInt8 → String
  (disk canBulk canStream canProxy : Bool)

/-- What the chunk callback of one streamed download keeps: all chunks that came, those that are not
yet written, and the first error of writing. -/
structure Attempt where
  chunks : List Piece := []
  queue : List Piece := []
  writeError : Option Err := none

inductive Outcome where
  | size (size : Nat)
  | bytes (bytes : List UInt8)
  | error (err : Err)
  deriving DecidableEq

/-- What the call waits for. To disk: a streamed download, its last chunks, so many writes, the
truncation after it failed. Into memory: a bulk download, a streamed one, its last chunks, the proxy,
the hash of what it gave, its write to disk. -/
inductive Phase where
  | streaming
  | landing
  | draining (left : Nat)
  | truncating
  | bulk
  | accumulating
  | assembling
  | requesting
  | hashing (bytes : List UInt8)
  | writing (bytes : List UInt8)
  | closing (size : Nat)
  | settled (outcome : Outcome)
  deriving DecidableEq

/-- How that settles. A wait for the last chunks ends with its next poll, or fails at its deadline;
only the proxy gives bytes, or nothing. -/
inductive Answer where
  | ok
  | bytes (bytes : List UInt8)
  | nothing
  | fails (err : Err)

structure Snatch where
  peers : List String
  tried : List String := []
  attempt : Attempt := {}
  /-- The attempts that were given up. -/
  past : List Attempt := []
  phase : Phase := .settled (.error .failure)
  aborted : Bool := false
  file : List UInt8 := []
  /-- How often the writable was closed. -/
  closes : Nat := 0
  /-- A cancellation was seen. -/
  observed : Bool := false
  /-- The chunks in the file, since it was last truncated. -/
  landed : List Piece := []
  /-- The chunks that were counted when the last of a download had come. -/
  counted : List Piece := []

inductive Op where
  | answer (answer : Answer)
  /-- A chunk comes, of the attempt or of one that was given up. -/
  | chunk (past : Option Nat) (piece : Piece)
  /-- A write of the chain of an attempt ends. -/
  | written (past : Option Nat) (failed : Option Err)
  | abort

def received (chunks : List Piece) : Nat := (chunks.map (·.length)).sum

namespace Snatch

variable (job : Job) (s : Snatch)

def settle (outcome : Outcome) : Snatch := { s with phase := .settled outcome }

def cancel : Snatch := { s.settle (.error .cancelled) with observed := true }

def newAttempt (phase : Phase) : Snatch :=
  { s with past := s.past ++ [s.attempt], attempt := {}, phase }

def streamInMemory : Snatch :=
  if job.canStream then s.newAttempt .accumulating else { s with phase := .requesting }

def snatchFromPeer : Snatch :=
  if job.canBulk then { s with phase := .bulk } else s.streamInMemory job

def nextPeer : Snatch :=
  match s.peers with
  | [] => s.settle (.error .failure)
  | peer :: rest =>
    if s.aborted then s.cancel
    else
      let trying := { s with peers := rest, tried := s.tried ++ [peer] }
      if job.disk && job.canStream then trying.newAttempt .streaming
      else trying.snatchFromPeer job

def peerFailed (err : Err) : Snatch := if err = .cancelled then s.cancel else s.nextPeer job

def streamFailed (err : Err) : Snatch :=
  if err = .cancelled then s.cancel else { s with phase := .truncating }

def strategyFailed (next : Snatch) (err : Err) : Snatch :=
  if err = .cancelled then s.cancel else next

def gotBytes (bytes : List UInt8) : Snatch :=
  if bytes = [] then s.peerFailed job .failure
  else if job.disk then if s.aborted then s.cancel else { s with phase := .writing bytes }
  else s.settle (.bytes bytes)

def assemble (chunks : List Piece) : List UInt8 :=
  chunks.foldl (fun buffer piece => writeAt 0 buffer piece.offset (piece.data job.content))
    (List.replicate job.content.length 0)

def answer : Answer → Snatch := fun a =>
  match s.phase, a with
  | .streaming, .ok => { s with phase := .landing }
  | .streaming, .fails err => s.streamFailed err
  | .landing, a =>
    if job.content.length ≤ received s.attempt.chunks then
      { s with phase := .draining s.attempt.queue.length, counted := s.attempt.chunks }
    else match a with
      | .fails _ => s.streamFailed .failure
      | _ => s
  | .draining 0, _ =>
    match s.attempt.writeError with
    | some err => s.streamFailed err
    | none =>
      if job.content.length = 0 then s.streamFailed .failure
      else { s with phase := .closing job.content.length }
  | .truncating, .ok => { s with file := [], landed := [] }.nextPeer job
  | .truncating, .fails err => s.settle (.error err)
  | .bulk, .ok => s.gotBytes job job.content
  | .bulk, .fails err => s.strategyFailed (s.streamInMemory job) err
  | .accumulating, .ok => { s with phase := .assembling }
  | .accumulating, .fails err => s.strategyFailed { s with phase := .requesting } err
  | .assembling, a =>
    if job.content.length ≤ received s.attempt.chunks then
      { s with counted := s.attempt.chunks }.gotBytes job (assemble job s.attempt.chunks)
    else match a with
      | .fails _ => { s with phase := .requesting }
      | _ => s
  | .requesting, a =>
    if job.canProxy then match a with
      | .bytes bytes => { s with phase := .hashing bytes }
      | .fails err => s.peerFailed job err
      | _ => s.peerFailed job .failure
    else s.peerFailed job .failure
  | .hashing bytes, .ok =>
    if job.hashBlake3 bytes = job.hashBlake3 job.content then s.gotBytes job bytes
    else s.peerFailed job .failure
  | .hashing _, .fails err => s.peerFailed job err
  | .writing bytes, .ok =>
    { s with file := writeAt 0 s.file 0 bytes, phase := .closing bytes.length }
  | .writing _, .fails err => s.settle (.error err)
  | .closing size, .ok => { s.settle (.size size) with closes := s.closes + 1 }
  | .closing _, .fails err => if job.canStream then s.streamFailed err else s.settle (.error err)
  | _, _ => s

def onChunk (piece : Piece) (attempt : Attempt) : Attempt :=
  { attempt with
    chunks := attempt.chunks ++ [piece]
    queue := if job.disk && attempt.writeError.isNone then attempt.queue ++ [piece]
      else attempt.queue }

def land (piece : Piece) : Snatch :=
  { s with
    file := writeAt 0 s.file piece.offset (piece.data job.content)
    landed := s.landed ++ [piece] }

/-- The head of the chain of writes of an attempt ends. A writable that is closed takes no more. -/
def writeHead (failed : Option Err) (attempt : Attempt) : Attempt × Snatch :=
  match attempt.queue with
  | [] => (attempt, s)
  | piece :: rest =>
    let left := { attempt with queue := rest }
    if attempt.writeError.isSome then (left, s)
    else match failed with
      | some err => ({ left with writeError := some err }, s)
      | none =>
        if 0 < s.closes then ({ left with writeError := some .failure }, s)
        else (left, s.land job piece)

def Phase.drained : Phase → Phase
  | .draining (left + 1) => .draining left
  | phase => phase

def written (failed : Option Err) : Snatch :=
  let (attempt, left) := s.writeHead job failed s.attempt
  { left with attempt, phase := Phase.drained s.phase }

def writtenPast (j : Nat) (failed : Option Err) : Snatch :=
  match s.past[j]? with
  | some attempt =>
    let (attempt, left) := s.writeHead job failed attempt
    { left with past := s.past.set j attempt }
  | none => s

def step : Op → Snatch → Snatch
  | .answer a, s => s.answer job a
  | .chunk none piece, s =>
    if piece.inside job.content.length then { s with attempt := onChunk job piece s.attempt }
    else s
  | .chunk (some j) piece, s =>
    if piece.inside job.content.length then { s with past := s.past.modify j (onChunk job piece) }
    else s
  | .written none failed, s => s.written job failed
  | .written (some j) failed, s => s.writtenPast job j failed
  | .abort, s => { s with aborted := true }

def start (peers : List String) : Snatch := nextPeer job { peers }

/-- So many bytes were counted, of chunks that lie in the blob. -/
def Enough (job : Job) (chunks : List Piece) : Prop :=
  (∀ piece ∈ chunks, piece.inside job.content.length) ∧ job.content.length ≤ received chunks

def Valid (job : Job) (attempt : Attempt) : Prop :=
  (∀ piece ∈ attempt.chunks, piece.inside job.content.length) ∧
    ∀ piece ∈ attempt.queue, piece.inside job.content.length

/-- The blob is on disk, or at least all chunks that were counted. -/
def Written (job : Job) (s : Snatch) (size : Nat) : Prop :=
  job.disk = true ∧ size = job.content.length ∧
    (s.file = job.content ∨ Enough job s.counted ∧ ∀ piece ∈ s.counted, piece ∈ s.landed)

def InPhase (job : Job) (s : Snatch) : Phase → Prop
  | .streaming | .landing | .truncating => job.disk = true ∧ job.canStream = true
  | .draining left => (job.disk = true ∧ job.canStream = true) ∧ left ≤ s.attempt.queue.length ∧
      Enough job s.counted ∧ (s.attempt.writeError = none →
        ∀ piece ∈ s.counted, piece ∈ s.attempt.queue.take left ∨ piece ∈ s.landed)
  | .bulk | .requesting | .hashing _ => job.disk = true → job.canStream = false
  | .accumulating | .assembling => job.disk = false
  | .writing bytes => job.disk = true ∧ job.canStream = false ∧ bytes = job.content
  | .closing size => Written job s size
  | .settled (.size size) => Written job s size
  | .settled (.bytes bytes) => job.disk = false ∧
      (bytes = job.content ∨ bytes = assemble job s.counted ∧ Enough job s.counted)
  | .settled (.error _) => True

/-- What every step keeps, whatever the phase: the file agrees with the blob where chunks landed. -/
structure Base (job : Job) (s : Snatch) : Prop where
  attempt : Valid job s.attempt
  past : ∀ attempt ∈ s.past, Valid job attempt
  file : Agrees job.content (s.landed.flatMap Piece.positions) s.file

/-- The chunks of the attempt are queued or landed, until a write fails. -/
def Queued (s : Snatch) : Prop :=
  s.attempt.writeError = none →
    ∀ piece ∈ s.attempt.chunks, piece ∈ s.attempt.queue ∨ piece ∈ s.landed

def Phase.closes : Phase → Nat
  | .settled (.size _) => 1
  | _ => 0

def Phase.waits : Phase → Bool
  | .settled _ => false
  | _ => true

structure Sound (job : Job) (s : Snatch) : Prop extends Base job s where
  inPhase : InPhase job s s.phase
  queued : job.disk = true → job.canStream = true → Phase.waits s.phase = true → Queued s
  closes : s.closes = Phase.closes s.phase
  observed : s.observed = true → s.phase = .settled (.error .cancelled)

section Answers

variable {job : Job} {s : Snatch}

theorem Base.error (base : Base job s) (closes : s.closes = 0) (unseen : s.observed = false)
    (err : Err) : Sound job (s.settle (.error err)) :=
  { base with
    inPhase := trivial
    queued := fun _ _ waits => (nomatch waits)
    closes
    observed := fun seen => absurd (unseen.symm.trans seen) Bool.false_ne_true }

theorem Base.cancel (base : Base job s) (closes : s.closes = 0) : Sound job s.cancel :=
  { base with
    inPhase := trivial
    queued := fun _ _ waits => (nomatch waits)
    closes
    observed := fun _ => rfl }

theorem Base.enter (base : Base job s) (phase : Phase) (closes : s.closes = 0)
    (unseen : s.observed = false) (inPhase : InPhase job { s with phase } phase)
    (unclosed : Phase.closes phase = 0) (queued : job.disk = true → job.canStream = true → Queued s) :
    Sound job { s with phase } :=
  { base with
    inPhase
    queued := fun disk streams _ => queued disk streams
    closes := closes.trans unclosed.symm
    observed := fun seen => absurd (unseen.symm.trans seen) Bool.false_ne_true }

theorem Base.newAttempt (base : Base job s) (closes : s.closes = 0) (unseen : s.observed = false)
    {phase : Phase} (inPhase : InPhase job (s.newAttempt phase) phase)
    (unclosed : Phase.closes phase = 0) : Sound job (s.newAttempt phase) where
  attempt := ⟨fun _ member => (nomatch member), fun _ member => (nomatch member)⟩
  past := by
    intro attempt member
    rcases List.mem_append.mp member with old | new
    · exact base.past attempt old
    · rw [List.mem_singleton.mp new]
      exact base.attempt
  file := base.file
  inPhase := inPhase
  queued := fun _ _ _ _ _ member => (nomatch member)
  closes := closes.trans unclosed.symm
  observed seen := absurd (unseen.symm.trans seen) Bool.false_ne_true

theorem Base.streamInMemory (base : Base job s) (closes : s.closes = 0)
    (unseen : s.observed = false) (memory : job.disk = true → job.canStream = false) :
    Sound job (s.streamInMemory job) := by
  unfold Snatch.streamInMemory
  split
  · rename_i streams
    apply base.newAttempt closes unseen _ rfl
    show job.disk = false
    cases disk : job.disk with
    | false => rfl
    | true => exact absurd ((memory disk).symm.trans streams) Bool.false_ne_true
  · apply base.enter .requesting closes unseen memory rfl
    intro disk streams
    exact absurd ((memory disk).symm.trans streams) Bool.false_ne_true

theorem Base.snatchFromPeer (base : Base job s) (closes : s.closes = 0)
    (unseen : s.observed = false) (memory : job.disk = true → job.canStream = false) :
    Sound job (s.snatchFromPeer job) := by
  unfold Snatch.snatchFromPeer
  split
  · apply base.enter .bulk closes unseen memory rfl
    intro disk streams
    exact absurd ((memory disk).symm.trans streams) Bool.false_ne_true
  · exact base.streamInMemory closes unseen memory

theorem Base.nextPeer (base : Base job s) (closes : s.closes = 0) (unseen : s.observed = false) :
    Sound job (s.nextPeer job) := by
  unfold Snatch.nextPeer
  split
  · exact base.error closes unseen .failure
  · rename_i peer rest _
    split
    · exact base.cancel closes
    · have trying : Base job { s with peers := rest, tried := s.tried ++ [peer] } := { base with }
      dsimp only
      split
      · rename_i both
        exact trying.newAttempt closes unseen (Bool.and_eq_true_iff.mp both) rfl
      · rename_i neither
        apply trying.snatchFromPeer closes unseen
        intro disk
        rw [disk, Bool.true_and] at neither
        exact Bool.eq_false_iff.mpr neither

theorem Base.peerFailed (base : Base job s) (closes : s.closes = 0) (unseen : s.observed = false)
    (err : Err) : Sound job (s.peerFailed job err) := by
  unfold Snatch.peerFailed
  split
  · exact base.cancel closes
  · exact base.nextPeer closes unseen

theorem Base.streamFailed (base : Base job s) (closes : s.closes = 0)
    (unseen : s.observed = false) (streams : job.disk = true ∧ job.canStream = true)
    (queued : Queued s) (err : Err) : Sound job (s.streamFailed err) := by
  unfold Snatch.streamFailed
  split
  · exact base.cancel closes
  · exact base.enter .truncating closes unseen streams rfl fun _ _ => queued

theorem Base.gotBytes (base : Base job s) (closes : s.closes = 0) (unseen : s.observed = false)
    (memory : job.disk = true → job.canStream = false) {bytes : List UInt8}
    (got : bytes = job.content ∨
      job.disk = false ∧ bytes = assemble job s.counted ∧ Enough job s.counted) :
    Sound job (s.gotBytes job bytes) := by
  unfold Snatch.gotBytes
  split
  · exact base.peerFailed closes unseen .failure
  · split
    · rename_i disk
      split
      · exact base.cancel closes
      · have streams := memory disk
        have same : bytes = job.content := by
          rcases got with same | none
          · exact same
          · exact absurd (none.1.symm.trans disk) Bool.false_ne_true
        apply base.enter (.writing bytes) closes unseen ⟨disk, streams, same⟩ rfl
        intro _ yes
        exact absurd (streams.symm.trans yes) Bool.false_ne_true
    · rename_i memory
      rw [Bool.not_eq_true] at memory
      refine { base with
          inPhase := ⟨memory, ?_⟩
          queued := fun _ _ waits => (nomatch waits)
          closes := closes
          observed := fun seen => absurd (unseen.symm.trans seen) Bool.false_ne_true }
      exact got.imp_right (·.2)

theorem Sound.going (sound : Sound job s) (waits : Phase.waits s.phase = true) :
    s.closes = 0 ∧ s.observed = false := by
  constructor
  · rw [sound.closes]
    cases phase : s.phase with
    | settled outcome =>
      rw [phase] at waits
      cases waits
    | _ => rfl
  · cases seen : s.observed with
    | false => rfl
    | true =>
      rw [sound.observed seen] at waits
      cases waits

theorem Sound.landed (sound : Sound job s) (phase : s.phase = .landing)
    (enough : job.content.length ≤ received s.attempt.chunks) : Sound job { s with
      phase := .draining s.attempt.queue.length
      counted := s.attempt.chunks } := by
  have waits : Phase.waits s.phase = true := by
    rw [phase]
    rfl
  obtain ⟨closes, unseen⟩ := sound.going waits
  have streams := sound.inPhase
  rw [phase] at streams
  have queued := sound.queued streams.1 streams.2 waits
  refine { sound.toBase with
      inPhase := ⟨streams, Nat.le_refl _, ⟨sound.attempt.1, enough⟩, ?_⟩
      queued := fun _ _ _ => queued
      closes := closes
      observed := fun seen => absurd (unseen.symm.trans seen) Bool.false_ne_true }
  intro none piece member
  rw [List.take_length]
  exact queued none piece member

theorem Sound.drained (sound : Sound job s) (phase : s.phase = .draining 0)
    (none : s.attempt.writeError = none) :
    Sound job { s with phase := .closing job.content.length } := by
  have waits : Phase.waits s.phase = true := by
    rw [phase]
    rfl
  obtain ⟨closes, unseen⟩ := sound.going waits
  have drained := sound.inPhase
  rw [phase] at drained
  obtain ⟨streams, _, enough, there⟩ := drained
  apply sound.toBase.enter (.closing job.content.length) closes unseen _ rfl
  · intro _ _
    exact sound.queued streams.1 streams.2 waits
  · refine ⟨streams.1, rfl, .inr ⟨enough, ?_⟩⟩
    intro piece member
    rcases there none piece member with queued | landed
    · cases queued
    · exact landed

/-- What a call does with an answer, if the proxy's bytes are those of the blob when their hash is. -/
theorem Sound.answer (sound : Sound job s)
    (collisionFree : ∀ bytes, job.hashBlake3 bytes = job.hashBlake3 job.content →
      bytes = job.content) (a : Answer) : Sound job (s.answer job a) := by
  have base := sound.toBase
  have inPhase := sound.inPhase
  have queued := sound.queued
  cases phase : s.phase with
  | settled outcome =>
    unfold Snatch.answer
    rw [phase]
    exact sound
  | streaming =>
    obtain ⟨closes, unseen⟩ := sound.going (by rw [phase]; rfl)
    rw [phase] at inPhase queued
    unfold Snatch.answer
    rw [phase]
    cases a with
    | ok => exact base.enter .landing closes unseen inPhase rfl fun disk streams =>
        queued disk streams rfl
    | fails err => exact base.streamFailed closes unseen inPhase (queued inPhase.1 inPhase.2 rfl) err
    | bytes | nothing => exact sound
  | landing =>
    obtain ⟨closes, unseen⟩ := sound.going (by rw [phase]; rfl)
    rw [phase] at inPhase queued
    unfold Snatch.answer
    rw [phase]
    dsimp only
    split
    · rename_i enough
      exact sound.landed phase enough
    · split
      · exact base.streamFailed closes unseen inPhase (queued inPhase.1 inPhase.2 rfl) .failure
      · exact sound
  | draining left =>
    obtain ⟨closes, unseen⟩ := sound.going (by rw [phase]; rfl)
    rw [phase] at inPhase queued
    have waiting := queued inPhase.1.1 inPhase.1.2 rfl
    cases left with
    | succ left =>
      unfold Snatch.answer
      rw [phase]
      exact sound
    | zero =>
      unfold Snatch.answer
      rw [phase]
      show Sound job (match s.attempt.writeError with
        | some err => s.streamFailed err
        | none => if job.content.length = 0 then s.streamFailed .failure
            else { s with phase := .closing job.content.length })
      split
      · exact base.streamFailed closes unseen inPhase.1 waiting _
      · rename_i none
        split
        · exact base.streamFailed closes unseen inPhase.1 waiting .failure
        · exact sound.drained phase none
  | truncating =>
    obtain ⟨closes, unseen⟩ := sound.going (by rw [phase]; rfl)
    unfold Snatch.answer
    rw [phase]
    cases a with
    | ok =>
      have empty : Base job { s with file := [], landed := [] } :=
        { base with file := ⟨Nat.zero_le _, fun _ member => (nomatch member)⟩ }
      exact empty.nextPeer closes unseen
    | fails err => exact base.error closes unseen err
    | bytes | nothing => exact sound
  | bulk =>
    obtain ⟨closes, unseen⟩ := sound.going (by rw [phase]; rfl)
    rw [phase] at inPhase
    unfold Snatch.answer
    rw [phase]
    cases a with
    | ok => exact base.gotBytes closes unseen inPhase (.inl rfl)
    | fails err =>
      show Sound job (s.strategyFailed (s.streamInMemory job) err)
      unfold strategyFailed
      split
      · exact base.cancel closes
      · exact base.streamInMemory closes unseen inPhase
    | bytes | nothing => exact sound
  | accumulating =>
    obtain ⟨closes, unseen⟩ := sound.going (by rw [phase]; rfl)
    rw [phase] at inPhase queued
    unfold Snatch.answer
    rw [phase]
    have memory : job.disk = true → job.canStream = false := fun disk =>
      absurd (Eq.symm inPhase |>.trans disk) Bool.false_ne_true
    cases a with
    | ok => exact base.enter .assembling closes unseen inPhase rfl fun disk streams =>
        queued disk streams rfl
    | fails err =>
      show Sound job (s.strategyFailed { s with phase := .requesting } err)
      unfold strategyFailed
      split
      · exact base.cancel closes
      · exact base.enter .requesting closes unseen memory rfl fun disk streams =>
          queued disk streams rfl
    | bytes | nothing => exact sound
  | assembling =>
    obtain ⟨closes, unseen⟩ := sound.going (by rw [phase]; rfl)
    rw [phase] at inPhase queued
    have memory : job.disk = true → job.canStream = false := fun disk =>
      absurd (Eq.symm inPhase |>.trans disk) Bool.false_ne_true
    unfold Snatch.answer
    rw [phase]
    dsimp only
    split
    · rename_i enough
      have counted : Base job { s with counted := s.attempt.chunks } := { base with }
      exact counted.gotBytes closes unseen memory
        (.inr ⟨inPhase, rfl, sound.attempt.1, enough⟩)
    · split
      · exact base.enter .requesting closes unseen memory rfl fun disk streams =>
          queued disk streams rfl
      · exact sound
  | requesting =>
    obtain ⟨closes, unseen⟩ := sound.going (by rw [phase]; rfl)
    rw [phase] at inPhase queued
    unfold Snatch.answer
    rw [phase]
    dsimp only
    split
    · split
      · exact base.enter (.hashing _) closes unseen inPhase rfl fun disk streams =>
          queued disk streams rfl
      · exact base.peerFailed closes unseen _
      · exact base.peerFailed closes unseen .failure
    · exact base.peerFailed closes unseen .failure
  | hashing bytes =>
    obtain ⟨closes, unseen⟩ := sound.going (by rw [phase]; rfl)
    rw [phase] at inPhase
    unfold Snatch.answer
    rw [phase]
    cases a with
    | ok =>
      dsimp only
      split
      · rename_i same
        exact base.gotBytes closes unseen inPhase (.inl (collisionFree bytes same))
      · exact base.peerFailed closes unseen .failure
    | fails err => exact base.peerFailed closes unseen err
    | bytes | nothing => exact sound
  | writing bytes =>
    obtain ⟨closes, unseen⟩ := sound.going (by rw [phase]; rfl)
    rw [phase] at inPhase queued
    unfold Snatch.answer
    rw [phase]
    cases a with
    | ok =>
      obtain ⟨disk, memory, rfl⟩ := inPhase
      have whole := writeAt_whole (0 : UInt8) base.file.length
      have written : Base job { s with file := writeAt 0 s.file 0 job.content } :=
        { base with file := by rw [whole]; exact base.file.whole }
      exact written.enter (.closing job.content.length) closes unseen ⟨disk, rfl, .inl whole⟩ rfl
        fun disk streams => queued disk streams rfl
    | fails err => exact base.error closes unseen err
    | bytes | nothing => exact sound
  | closing size =>
    obtain ⟨closes, unseen⟩ := sound.going (by rw [phase]; rfl)
    rw [phase] at inPhase queued
    unfold Snatch.answer
    rw [phase]
    cases a with
    | ok =>
      exact { base with
        inPhase
        queued := fun _ _ waits => (nomatch waits)
        closes := congrArg (· + 1) closes
        observed := fun seen => absurd (unseen.symm.trans seen) Bool.false_ne_true }
    | fails err =>
      dsimp only
      split
      · rename_i streams
        exact base.streamFailed closes unseen ⟨inPhase.1, streams⟩ (queued inPhase.1 streams rfl) err
      · exact base.error closes unseen err
    | bytes | nothing => exact sound

end Answers

section Chunks

variable {job : Job} {s : Snatch} {piece : Piece}

theorem valid_onChunk {attempt : Attempt} (valid : Valid job attempt)
    (inside : piece.inside job.content.length) : Valid job (onChunk job piece attempt) := by
  constructor
  · intro other member
    rcases List.mem_append.mp member with old | new
    · exact valid.1 other old
    · rw [List.mem_singleton.mp new]
      exact inside
  · intro other member
    unfold Snatch.onChunk at member
    dsimp only at member
    split at member
    · rcases List.mem_append.mp member with old | new
      · exact valid.2 other old
      · rw [List.mem_singleton.mp new]
        exact inside
    · exact valid.2 other member

theorem Written.land {size : Nat} (written : Written job s size)
    (inside : piece.inside job.content.length) : Written job (s.land job piece) size := by
  obtain ⟨disk, same, whole | ⟨enough, there⟩⟩ := written
  · refine ⟨disk, same, .inl ?_⟩
    have all : Agrees job.content (List.range job.content.length) s.file := by
      rw [whole]
      exact .refl fun i => List.mem_range.mp
    exact (all.write 0 inside).eq fun i before =>
      List.mem_append_left _ (List.mem_range.mpr before)
  · exact ⟨disk, same, .inr ⟨enough, fun piece member => List.mem_append_left _ (there piece member)⟩⟩

theorem Sound.land (sound : Sound job s) (inside : piece.inside job.content.length) :
    Sound job (s.land job piece) where
  attempt := sound.attempt
  past := sound.past
  file := by
    show Agrees job.content ((s.landed ++ [piece]).flatMap Piece.positions) _
    rw [List.flatMap_append, List.flatMap_singleton]
    exact sound.file.write 0 inside
  inPhase := by
    have inPhase := sound.inPhase
    show InPhase job (s.land job piece) s.phase
    cases phase : s.phase with
    | draining left =>
      rw [phase] at inPhase
      obtain ⟨streams, short, enough, there⟩ := inPhase
      refine ⟨streams, short, enough, ?_⟩
      intro none piece member
      exact (there none piece member).imp_right (List.mem_append_left _)
    | closing size =>
      rw [phase] at inPhase
      exact Written.land inPhase inside
    | settled outcome =>
      rw [phase] at inPhase
      cases outcome with
      | size size => exact Written.land inPhase inside
      | bytes | error => exact inPhase
    | _ =>
      rw [phase] at inPhase
      exact inPhase
  queued disk streams waits none piece member :=
    (sound.queued disk streams waits none piece member).imp_right (List.mem_append_left _)
  closes := sound.closes
  observed := sound.observed

/-- The head of the chain of the attempt has landed, or the chain has failed. -/
theorem Sound.pop (sound : Sound job s) {rest : List Piece} (queue : s.attempt.queue = piece :: rest)
    {writeError : Option Err}
    (done : writeError = none → s.attempt.writeError = none ∧ piece ∈ s.landed) :
    Sound job { s with
      attempt := { s.attempt with queue := rest, writeError }
      phase := Phase.drained s.phase } where
  attempt := by
    refine ⟨sound.attempt.1, ?_⟩
    intro other member
    apply sound.attempt.2 other
    rw [queue]
    exact List.mem_cons_of_mem _ member
  past := sound.past
  file := sound.file
  inPhase := by
    have inPhase := sound.inPhase
    cases phase : s.phase with
    | draining left =>
      rw [phase] at inPhase
      obtain ⟨streams, short, enough, there⟩ := inPhase
      rw [queue] at short there
      cases left with
      | zero =>
        refine ⟨streams, Nat.zero_le _, enough, ?_⟩
        intro none other member
        exact there (done none).1 other member
      | succ left =>
        refine ⟨streams, Nat.le_of_succ_le_succ short, enough, ?_⟩
        intro none other member
        obtain ⟨before, landed⟩ := done none
        rcases there before other member with waits | there
        · rw [List.take_succ_cons, List.mem_cons] at waits
          rcases waits with rfl | later
          · exact .inr landed
          · exact .inl later
        · exact .inr there
    | settled outcome =>
      rw [phase] at inPhase
      cases outcome <;> exact inPhase
    | _ =>
      rw [phase] at inPhase
      exact inPhase
  queued := by
    intro disk streams waits none other member
    have before : Phase.waits s.phase = true := by
      cases phase : s.phase with
      | settled outcome =>
        rw [phase] at waits
        cases waits
      | _ => rfl
    obtain ⟨noError, landed⟩ := done none
    rcases sound.queued disk streams before noError other member with queued | there
    · rw [queue, List.mem_cons] at queued
      rcases queued with rfl | later
      · exact .inr landed
      · exact .inl later
    · exact .inr there
  closes := by
    refine sound.closes.trans ?_
    cases s.phase with
    | draining left => cases left <;> rfl
    | _ => rfl
  observed seen := by
    rw [sound.observed seen]
    rfl

theorem Sound.onChunk (sound : Sound job s) (inside : piece.inside job.content.length) :
    Sound job { s with attempt := Snatch.onChunk job piece s.attempt } := by
  have longer : s.attempt.queue <+: (Snatch.onChunk job piece s.attempt).queue := by
    unfold Snatch.onChunk
    dsimp only
    split
    · exact List.prefix_append _ _
    · exact List.prefix_rfl
  constructor
  case toBase => exact ⟨valid_onChunk sound.attempt inside, sound.past, sound.file⟩
  case inPhase =>
    have inPhase := sound.inPhase
    show InPhase job { s with attempt := Snatch.onChunk job piece s.attempt } s.phase
    cases phase : s.phase with
    | draining left =>
      rw [phase] at inPhase
      obtain ⟨streams, short, enough, there⟩ := inPhase
      refine ⟨streams, Nat.le_trans short longer.length_le, enough, ?_⟩
      obtain ⟨more, same⟩ := longer
      show s.attempt.writeError = none → ∀ other ∈ s.counted,
        other ∈ (Snatch.onChunk job piece s.attempt).queue.take left ∨ other ∈ s.landed
      rw [← same, List.take_append_of_le_length short]
      exact there
    | settled outcome =>
      rw [phase] at inPhase
      cases outcome <;> exact inPhase
    | _ =>
      rw [phase] at inPhase
      exact inPhase
  case queued =>
    intro disk streams waits noError other member
    have queued := sound.queued disk streams waits noError
    change s.attempt.writeError = none at noError
    rcases List.mem_append.mp member with old | new
    · exact (queued other old).imp_left fun there => longer.subset there
    · left
      show other ∈ (Snatch.onChunk job piece s.attempt).queue
      unfold Snatch.onChunk
      rw [disk, noError]
      exact List.mem_append_right _ new
  case closes => exact sound.closes
  case observed => exact sound.observed

theorem Sound.keepPast (sound : Sound job s) {past : List Attempt}
    (valid : ∀ attempt ∈ past, Valid job attempt) : Sound job { s with past } :=
  { sound with
    past := valid
    inPhase := by
      have inPhase := sound.inPhase
      show InPhase job { s with past } s.phase
      cases phase : s.phase with
      | settled outcome =>
        rw [phase] at inPhase
        cases outcome <;> exact inPhase
      | _ =>
        rw [phase] at inPhase
        exact inPhase }

theorem writeHead_cases (job : Job) (s : Snatch) (failed : Option Err) (attempt : Attempt) :
    (attempt.queue = [] ∧ s.writeHead job failed attempt = (attempt, s)) ∨
    ∃ piece rest, attempt.queue = piece :: rest ∧
      ((∃ err, s.writeHead job failed attempt =
          ({ attempt with queue := rest, writeError := some err }, s)) ∨
        attempt.writeError = none ∧ s.writeHead job failed attempt =
          ({ attempt with queue := rest }, s.land job piece)) := by
  unfold writeHead
  cases queue : attempt.queue with
  | nil => exact .inl ⟨rfl, rfl⟩
  | cons piece rest =>
    refine .inr ⟨piece, rest, rfl, ?_⟩
    dsimp only
    cases error : attempt.writeError with
    | some err => exact .inl ⟨err, rfl⟩
    | none =>
      cases failed with
      | some err => exact .inl ⟨err, rfl⟩
      | none =>
        by_cases closed : 0 < s.closes
        · exact .inl ⟨.failure, by rw [if_neg (by decide), if_pos closed]⟩
        · exact .inr ⟨rfl, by rw [if_neg (by decide), if_neg closed]⟩

theorem Sound.written (sound : Sound job s) (failed : Option Err) :
    Sound job (s.written job failed) := by
  show Sound job { (s.writeHead job failed s.attempt).2 with
    attempt := (s.writeHead job failed s.attempt).1
    phase := Phase.drained s.phase }
  rcases writeHead_cases job s failed s.attempt with
    ⟨queue, same⟩ | ⟨piece, rest, queue, ⟨err, same⟩ | ⟨noError, same⟩⟩
  · rw [same]
    have idle : Phase.drained s.phase = s.phase := by
      have inPhase := sound.inPhase
      cases phase : s.phase with
      | draining left =>
        rw [phase] at inPhase
        have short := inPhase.2.1
        rw [queue] at short
        cases left with
        | zero => rfl
        | succ left => exact absurd short (Nat.not_succ_le_zero left)
      | _ => rfl
    rw [idle]
    exact sound
  · rw [same]
    exact sound.pop queue fun none => (nomatch none)
  · rw [same]
    have inside : piece.inside job.content.length := by
      apply sound.attempt.2 piece
      rw [queue]
      exact List.mem_cons_self
    have landed := sound.land inside
    exact landed.pop queue fun none => ⟨none, List.mem_append_right _ (.head _)⟩

theorem Sound.writtenPast (sound : Sound job s) (j : Nat) (failed : Option Err) :
    Sound job (s.writtenPast job j failed) := by
  unfold Snatch.writtenPast
  cases found : s.past[j]? with
  | none => exact sound
  | some attempt =>
    have valid := sound.past attempt (List.mem_of_getElem? found)
    have keeps {next : Attempt} (still : Valid job next) :
        ∀ attempt ∈ s.past.set j next, Valid job attempt := by
      intro other member
      rcases List.mem_or_eq_of_mem_set member with old | rfl
      · exact sound.past other old
      · exact still
    dsimp only
    rcases writeHead_cases job s failed attempt with
      ⟨queue, same⟩ | ⟨piece, rest, queue, ⟨err, same⟩ | ⟨noError, same⟩⟩
    · rw [same]
      exact sound.keepPast (keeps valid)
    · rw [same]
      refine sound.keepPast (keeps ⟨valid.1, fun other member => valid.2 other ?_⟩)
      rw [queue]
      exact List.mem_cons_of_mem _ member
    · rw [same]
      have inside : piece.inside job.content.length := by
        apply valid.2 piece
        rw [queue]
        exact List.mem_cons_self
      refine (sound.land inside).keepPast (keeps ⟨valid.1, fun other member => valid.2 other ?_⟩)
      rw [queue]
      exact List.mem_cons_of_mem _ member

theorem Sound.chunkPast (sound : Sound job s) (inside : piece.inside job.content.length) (j : Nat) :
    Sound job { s with past := s.past.modify j (Snatch.onChunk job piece) } := by
  apply sound.keepPast
  intro attempt member
  obtain ⟨i, found⟩ := List.mem_iff_getElem?.mp member
  rw [List.getElem?_modify] at found
  obtain ⟨before, there, rfl⟩ := Option.map_eq_some_iff.mp found
  have valid := sound.past before (List.mem_of_getElem? there)
  split
  · exact valid_onChunk valid inside
  · exact valid

end Chunks

theorem step_sound {job : Job} (collisionFree : ∀ bytes,
    job.hashBlake3 bytes = job.hashBlake3 job.content → bytes = job.content) (op : Op) (s : Snatch)
    (sound : Sound job s) : Sound job (s.step job op) := by
  cases op with
  | answer a => exact sound.answer collisionFree a
  | chunk past piece =>
    cases past with
    | none =>
      show Sound job (if piece.inside job.content.length then _ else s)
      split
      · rename_i inside
        exact sound.onChunk inside
      · exact sound
    | some j =>
      show Sound job (if piece.inside job.content.length then _ else s)
      split
      · rename_i inside
        exact sound.chunkPast inside j
      · exact sound
  | written past failed =>
    cases past with
    | none => exact sound.written failed
    | some j => exact sound.writtenPast j failed
  | abort =>
    refine { sound with inPhase := ?_ }
    have inPhase := sound.inPhase
    show InPhase job { s with aborted := true } s.phase
    cases phase : s.phase with
    | settled outcome =>
      rw [phase] at inPhase
      cases outcome <;> exact inPhase
    | _ =>
      rw [phase] at inPhase
      exact inPhase

theorem start_sound (job : Job) (peers : List String) : Sound job (start job peers) := by
  have base : Base job { peers } :=
    { attempt := ⟨fun _ member => (nomatch member), fun _ member => (nomatch member)⟩
      past := fun _ member => (nomatch member)
      file := ⟨Nat.zero_le _, fun _ member => (nomatch member)⟩ }
  exact base.nextPeer rfl rfl

section Delivery

variable {job : Job} {s : Snatch}

variable {chunks : List Piece}

/-- The chunks that were counted, if none of them brings a byte that another brings, are the blob. -/
theorem Enough.covers (enough : Enough job chunks) (once : (chunks.flatMap Piece.positions).Nodup) :
    ∀ i < job.content.length, i ∈ chunks.flatMap Piece.positions := by
  apply Tomb.Lib.covers once
  · intro i member
    obtain ⟨piece, known, inside⟩ := List.mem_flatMap.mp member
    exact Nat.lt_of_lt_of_le (Piece.mem_positions.mp inside).2 (enough.1 piece known)
  · rw [length_flatMap_positions]
    exact enough.2

theorem assemble_agrees
    (inside : ∀ piece ∈ chunks, piece.inside job.content.length) {known : List Nat}
    {buffer : List UInt8} (agrees : Agrees job.content known buffer) :
    Agrees job.content (known ++ chunks.flatMap Piece.positions)
      (chunks.foldl (fun buffer piece => writeAt 0 buffer piece.offset (piece.data job.content))
        buffer) := by
  induction chunks generalizing known buffer with
  | nil =>
    rw [List.flatMap_nil, List.append_nil]
    exact agrees
  | cons piece rest ih =>
    obtain ⟨first, others⟩ := List.forall_mem_cons.mp inside
    rw [List.flatMap_cons, ← List.append_assoc]
    exact ih others (agrees.write 0 first)

theorem assemble_eq (enough : Enough job chunks)
    (once : (chunks.flatMap Piece.positions).Nodup) : assemble job chunks = job.content := by
  have empty : Agrees job.content [] (List.replicate job.content.length (0 : UInt8)) :=
    ⟨Nat.le_of_eq List.length_replicate, fun _ member => (nomatch member)⟩
  exact (assemble_agrees enough.1 empty).eq (enough.covers once)

theorem Sound.file_eq (sound : Sound job s) {size : Nat} (written : Written job s size)
    (once : (s.counted.flatMap Piece.positions).Nodup) : s.file = job.content := by
  obtain ⟨-, -, whole | ⟨enough, there⟩⟩ := written
  · exact whole
  · apply sound.file.eq
    intro i before
    obtain ⟨piece, member, inside⟩ := List.mem_flatMap.mp (enough.covers once i before)
    exact List.mem_flatMap.mpr ⟨piece, there piece member, inside⟩

theorem settled_step {outcome : Outcome} (op : Op) (s : Snatch) (tried : List String)
    (settled : s.phase = .settled outcome ∧ s.tried = tried) :
    (s.step job op).phase = .settled outcome ∧ (s.step job op).tried = tried := by
  obtain ⟨phase, same⟩ := settled
  have head (failed : Option Err) (attempt : Attempt) :
      (s.writeHead job failed attempt).2.tried = tried ∧
        (s.writeHead job failed attempt).2.phase = .settled outcome := by
    rcases writeHead_cases job s failed attempt with
      ⟨-, eq⟩ | ⟨piece, rest, -, ⟨err, eq⟩ | ⟨-, eq⟩⟩ <;> rw [eq] <;> exact ⟨same, phase⟩
  cases op with
  | answer a =>
    show (s.answer job a).phase = _ ∧ (s.answer job a).tried = _
    unfold Snatch.answer
    rw [phase]
    exact ⟨phase, same⟩
  | chunk past piece =>
    cases past with
    | none =>
      show (if piece.inside job.content.length then _ else s).phase = _ ∧
        (if piece.inside job.content.length then _ else s).tried = _
      split <;> exact ⟨phase, same⟩
    | some j =>
      show (if piece.inside job.content.length then _ else s).phase = _ ∧
        (if piece.inside job.content.length then _ else s).tried = _
      split <;> exact ⟨phase, same⟩
  | written past failed =>
    cases past with
    | none =>
      refine ⟨?_, (head failed s.attempt).1⟩
      show Phase.drained s.phase = _
      rw [phase]
      rfl
    | some j =>
      show (s.writtenPast job j failed).phase = _ ∧ (s.writtenPast job j failed).tried = _
      unfold writtenPast
      cases s.past[j]? with
      | none => exact ⟨phase, same⟩
      | some attempt => exact ⟨(head failed attempt).2, (head failed attempt).1⟩
  | abort => exact ⟨phase, same⟩

/-- A call that succeeds delivers the blob, unless its count took a byte twice; when a cancellation
was seen no further peer is tried; and the writable is closed once if the call succeeds, and left open
otherwise. -/
theorem snatched_blob_exact (job : Job) (collisionFree : ∀ bytes,
    job.hashBlake3 bytes = job.hashBlake3 job.content → bytes = job.content)
    (peers : List String) (ops : List Op) :
    let s := runAll (step job) ops (start job peers)
    ((s.counted.flatMap Piece.positions).Nodup →
      (∀ size, s.phase = .settled (.size size) →
        size = job.content.length ∧ s.file = job.content) ∧
      ∀ bytes, s.phase = .settled (.bytes bytes) → bytes = job.content) ∧
    (s.observed = true → ∀ later, (runAll (step job) later s).tried = s.tried) ∧
    s.closes = Phase.closes s.phase := by
  intro s
  have sound : Sound job s := runAll_keeps (step_sound collisionFree) ops (start_sound job peers)
  refine ⟨?_, ?_, sound.closes⟩
  · intro once
    constructor
    · intro size phase
      have written := sound.inPhase
      rw [phase] at written
      exact ⟨written.2.1, sound.file_eq written once⟩
    · intro bytes phase
      have got := sound.inPhase
      rw [phase] at got
      obtain ⟨-, whole | ⟨rfl, enough⟩⟩ := got
      · exact whole
      · exact assemble_eq enough once
  · intro seen later
    have settled := @runAll_keeps _ _ (step job) _ (fun op s' => settled_step op s' s.tried) later s
      ⟨sound.observed seen, rfl⟩
    exact settled.2

def fourBytes : Job where
  content := [1, 2, 3, 4]
  hashBlake3 bytes := if bytes = [1, 2, 3, 4] then "four" else "other"
  disk := true
  canBulk := false
  canStream := true
  canProxy := false

def snatchFour (ops : List Op) : Snatch := runAll (step fourBytes) ops (start fourBytes ["p", "q"])

/-- The second peer delivers, while a chunk of the first, which timed out, comes late. -/
theorem snatched_from_second_peer :
    (snatchFour [.chunk none ⟨0, 2⟩, .answer (.fails .failure), .answer .ok, .chunk none ⟨2, 2⟩,
      .written (some 1) none, .chunk none ⟨0, 2⟩, .answer .ok, .answer .ok, .written none none,
      .written none none, .answer .ok, .answer .ok]).file = [1, 2, 3, 4] := by
  have collisionFree : ∀ bytes, fourBytes.hashBlake3 bytes =
      fourBytes.hashBlake3 fourBytes.content → bytes = fourBytes.content := by
    intro bytes same
    by_contra differs
    have other : fourBytes.hashBlake3 bytes = "other" := if_neg differs
    rw [other] at same
    exact absurd same (by decide)
  have delivered := (snatched_blob_exact fourBytes collisionFree ["p", "q"]
    [.chunk none ⟨0, 2⟩, .answer (.fails .failure), .answer .ok, .chunk none ⟨2, 2⟩,
      .written (some 1) none, .chunk none ⟨0, 2⟩, .answer .ok, .answer .ok, .written none none,
      .written none none, .answer .ok, .answer .ok]).1 (by decide)
  exact (delivered.1 4 (by decide)).2

/-- A call that is cancelled and one that every peer failed never close the writable, and a chunk
that comes twice is taken for one that did not come. -/
theorem writable_left_open :
    (snatchFour [.answer (.fails .cancelled)]).phase = .settled (.error .cancelled) ∧
    (snatchFour [.answer (.fails .cancelled)]).closes = 0 ∧
    (snatchFour [.answer (.fails .failure), .answer .ok, .answer (.fails .failure),
      .answer .ok]).phase = .settled (.error .failure) ∧
    (snatchFour [.answer (.fails .failure), .answer .ok, .answer (.fails .failure),
      .answer .ok]).closes = 0 ∧
    (snatchFour [.chunk none ⟨0, 2⟩, .chunk none ⟨0, 2⟩, .answer .ok, .answer .ok,
      .written none none, .written none none, .answer .ok, .answer .ok]).phase =
        .settled (.size 4) ∧
    (snatchFour [.chunk none ⟨0, 2⟩, .chunk none ⟨0, 2⟩, .answer .ok, .answer .ok,
      .written none none, .written none none, .answer .ok, .answer .ok]).file = [1, 2] := by
  decide

end Delivery

end Snatch

end Tomb.Reliquary.Transfer.Snatching
