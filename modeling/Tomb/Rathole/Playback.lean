import Tomb.Lib.Runs
import Tomb.Rathole.Queue

/-! How rathole plays its queue: the tasks that load an entry into a backend, and the events by
which tasks and backends make the queue advance. Each play of an entry has a number; tasks, loaded
items and events carry the number of the play that they come from, which the code does not.
Positions, titles and artwork are left out. -/
namespace Tomb.Rathole

/-- Why entries leave the queue: the user had another one played, or an event that comes from a
play, if it is known which. -/
inductive Cause where
  | user
  | outcome (play : Option Nat)
  deriving DecidableEq

structure Move where
  entry : QueueEntry
  play : Option Nat
  cause : Cause
  deriving DecidableEq

inductive Job where
  | stopAudio
  | closeVideo
  | song (row : SongRow) (closeFirst : Bool)
  | video (row : QueuedVideoRow)
  | fallback (row : SongRow)

inductive LoadStage where
  /-- The other backend is stopped or closed. -/
  | silence
  | resolve
  | load
  | done
  deriving DecidableEq

structure LoadTask where
  play : Nat
  job : Job
  stage : LoadStage := .silence

inductive PlayerEvent where
  | playing
  | ended
  | error
  | videoEnded
  | videoClosed
  | videoError

structure Playback where
  app : App QueueEntry
  /-- The backends that there are. -/
  (hasAudio hasVideo : Bool)
  queueVideoActive : Bool := false
  audioFallbackActive : Bool := false
  pendingSongId : Option String := none
  plays : Nat := 0
  tasks : List LoadTask := []
  /-- The events that are not yet handled, the first one in front. -/
  events : List (PlayerEvent × Option Nat) := []
  /-- The play whose item each backend has loaded. -/
  audio : Option Nat := none
  video : Option Nat := none
  /-- The last load that a backend accepted. -/
  lastLoad : Option (Nat × QueueEntry) := none
  moves : List Move := []

def QueueEntry.songId? : QueueEntry → Option String
  | .song row => some row.id
  | .video _ => none

def playable (localPath mediaBlobId : Option String) (blobFound : Bool) : Bool :=
  localPath.isSome || mediaBlobId.isSome && blobFound

namespace Playback

variable (s : Playback)

def spawn (job : Job) : Playback := { s with tasks := s.tasks ++ [{ play := s.plays, job := job }] }

def spawnIf (condition : Bool) (job : Job) : Playback := if condition then s.spawn job else s

def leaves (idx : Nat) (cause : Cause) : List Move :=
  (s.app.queue.take idx).zipIdx.map fun (entry, index) =>
    ⟨entry, if index = 0 ∧ s.app.current = some 0 then some s.plays else none, cause⟩

def moved (idx : Nat) (cause : Cause) : Playback :=
  { s with
    app := s.app.playIndex idx
    plays := s.plays + 1
    moves := s.moves ++ s.leaves idx cause }

def playIndex (idx : Nat) (cause : Cause) : Playback :=
  let videoActive := s.queueVideoActive || s.audioFallbackActive
  let moved := s.moved idx cause
  match s.app.queue[idx]? with
  | none =>
    let stopped : Playback :=
      { moved with queueVideoActive := false, audioFallbackActive := false, pendingSongId := none }
    if videoActive then stopped.spawnIf s.hasVideo .closeVideo
    else stopped.spawnIf s.hasAudio .stopAudio
  | some (.song row) =>
    let loading : Playback :=
      { moved with
        queueVideoActive := false, audioFallbackActive := false, pendingSongId := some row.id }
    loading.spawnIf s.hasAudio (.song row (videoActive && s.hasVideo))
  | some (.video row) =>
    let loading : Playback :=
      { moved with queueVideoActive := true, audioFallbackActive := false, pendingSongId := none }
    loading.spawn (.video row)

def playNext (cause : Cause) : Playback := s.playIndex ((s.app.current.map (· + 1)).getD 0) cause

def currentlyPlaying : Option QueueEntry := s.app.current.bind fun index => s.app.queue[index]?

def tryMpvAudioFallback (cause : Cause) : Playback :=
  let cleared : Playback := { s with pendingSongId := none }
  match s.currentlyPlaying with
  | some (.song row) =>
    if s.hasVideo then { cleared with audioFallbackActive := true }.spawn (.fallback row)
    else cleared.playNext cause
  | _ => cleared.playNext cause

def loadFailed : Bool :=
  s.pendingSongId.isSome ∧ s.pendingSongId = s.currentlyPlaying.bind QueueEntry.songId?

def handle (event : PlayerEvent) (cause : Cause) : Playback :=
  match event with
  | .playing => { s with pendingSongId := none }
  | .ended => if s.loadFailed then s.tryMpvAudioFallback cause else s.playNext cause
  | .error => s
  | .videoEnded | .videoClosed | .videoError =>
    if s.queueVideoActive || s.audioFallbackActive then
      { s with audioFallbackActive := false }.playNext cause
    else s

def deliver : Playback :=
  match s.events with
  | [] => s
  | (event, play) :: rest =>
    { s with events := rest }.handle event (.outcome play)

def emit (play : Option Nat) (events : List PlayerEvent) : Playback :=
  { s with events := s.events ++ events.map (·, play) }

def setStage (index : Nat) (stage : LoadStage) : Playback :=
  { s with tasks := s.tasks.modify index fun task => { task with stage := stage } }

def giveUp (index : Nat) (task : LoadTask) (events : List PlayerEvent) : Playback :=
  (s.emit (some task.play) events).setStage index .done

def silence (index : Nat) (job : Job) : Playback :=
  match job with
  | .stopAudio => { s with audio := none }.setStage index .done
  | .closeVideo => { s with video := none }.setStage index .done
  | .song _ closeFirst =>
    { s with video := if closeFirst then none else s.video }.setStage index .resolve
  | .video _ | .fallback _ => { s with audio := none }.setStage index .resolve

def resolve (index : Nat) (task : LoadTask) (found : Bool) : Playback :=
  match task.job with
  | .song row _ =>
    if playable row.localPath row.mediaBlobId found then s.setStage index .load
    else s.giveUp index task [.error, .ended]
  | .video row =>
    if s.hasVideo && playable row.localPath row.mediaBlobId found then s.setStage index .load
    else s.giveUp index task [.videoError, .ended]
  | .fallback row =>
    if playable row.localPath row.mediaBlobId found then s.setStage index .load
    else s.giveUp index task [.videoError]
  | .stopAudio | .closeVideo => s

def load (index : Nat) (task : LoadTask) (accepted : Bool) : Playback :=
  match task.job with
  | .song row _ =>
    if accepted then
      { s with audio := some task.play, lastLoad := some (task.play, .song row) }.setStage index
        .done
    else s.giveUp index task [.error, .ended]
  | .video row =>
    if accepted then
      { s with video := some task.play, lastLoad := some (task.play, .video row) }.setStage index
        .done
    else s.giveUp index task [.videoError]
  | .fallback row =>
    if accepted then
      { s with video := some task.play, lastLoad := some (task.play, .song row) }.setStage index
        .done
    else s.giveUp index task [.videoError]
  | .stopAudio | .closeVideo => s

def advance (index : Nat) (success : Bool) : Playback :=
  match s.tasks[index]? with
  | some task => match task.stage with
    | .silence => s.silence index task.job
    | .resolve => s.resolve index task success
    | .load => s.load index task success
    | .done => s
  | none => s

def setQueueEntries (entries : List QueueEntry) (start : Nat) : Playback :=
  { s with app := { s.app with queue := entries } }.playIndex start .user

def removeFromQueue (index : Nat) : Playback :=
  if s.app.queue.length ≤ index then s
  else
    let removed : Playback := { s with app := { s.app with queue := s.app.queue.eraseIdx index } }
    if index = 0 then removed.playIndex 0 .user else removed

end Playback

inductive LoadOp where
  | setQueueEntries (entries : List QueueEntry) (start : Nat)
  | playIndex (idx : Nat)
  | playNext
  | removeFromQueue (index : Nat)
  | advance (task : Nat) (success : Bool)

inductive PlaybackOp where
  | load (op : LoadOp)
  /-- The next event is handled. -/
  | deliver
  /-- Events of the backends. -/
  | audioPlays
  | audioEnds (failed : Bool)
  | videoEnds
  | videoFails
  | videoCloses

namespace Playback

def loadStep : LoadOp → Playback → Playback
  | .setQueueEntries entries start, s => s.setQueueEntries entries start
  | .playIndex idx, s => s.playIndex idx .user
  | .playNext, s => s.playNext .user
  | .removeFromQueue index, s => s.removeFromQueue index
  | .advance task success, s => s.advance task success

def step : PlaybackOp → Playback → Playback
  | .load op, s => loadStep op s
  | .deliver, s => s.deliver
  | .audioPlays, s => s.emit s.audio [.playing]
  | .audioEnds failed, s => s.emit s.audio (if failed then [.error, .ended] else [.ended])
  | .videoEnds, s => s.emit s.video [.videoEnded]
  | .videoFails, s => s.emit s.video [.videoError]
  | .videoCloses, s => s.emit s.video [.videoClosed]

def idle (hasAudio hasVideo : Bool) : Playback where
  app := { queue := [], current := none, history := [], radio := none, pendingPreviews := []
           unresolvedItems := [] }
  hasAudio := hasAudio
  hasVideo := hasVideo

end Playback

end Tomb.Rathole
