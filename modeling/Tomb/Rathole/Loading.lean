import Tomb.Lib.Entries
import Tomb.Rathole.Playback

/-! Which item the backends have loaded once all tasks are through. -/
namespace Tomb.Rathole
open Lib

def Job.entry : Job → Option QueueEntry
  | .song row _ | .fallback row => some (.song row)
  | .video row => some (.video row)
  | .stopAudio | .closeVideo => none

namespace LoadTask

def Stops (task : LoadTask) : Prop :=
  task.stage = .silence ∧ (task.job = .stopAudio ∨ ∃ row, task.job = .video row)

def Closes (task : LoadTask) : Prop :=
  task.stage = .silence ∧ (task.job = .closeVideo ∨ ∃ row, task.job = .song row true)

end LoadTask

namespace Playback

section Conditions

variable (s : Playback)

def starts : LoadOp → Option QueueEntry
  | .setQueueEntries entries start => entries[start]?
  | .playIndex idx => s.app.queue[idx]?
  | .playNext => s.app.queue[(s.app.current.map (· + 1)).getD 0]?
  | .removeFromQueue index => if index = 0 then s.app.queue[1]? else none
  | .advance _ _ => none

def found (success : Bool) : Job → Bool
  | .song row _ | .fallback row => playable row.localPath row.mediaBlobId success
  | .video row => s.hasVideo && playable row.localPath row.mediaBlobId success
  | .stopAudio | .closeVideo => true

def fitsTask (task : LoadTask) (success : Bool) : Bool :=
  match task.stage with
  | .resolve => task.play ≠ s.plays || s.found success task.job
  | .load => success = decide (task.play = s.plays)
  | .silence | .done => true

def fitsLoad (op : LoadOp) : Bool :=
  (s.hasAudio || ((s.starts op).bind QueueEntry.songId?).isNone) && match op with
    | .advance index success => (s.tasks[index]?).all (s.fitsTask · success)
    | _ => true

end Conditions

/-- No item is loaded after a later play, the task of the latest play succeeds, and no song is
played without a backend for it. -/
def FitsLoad (op : LoadOp) (s : Playback) : Prop := s.fitsLoad op = true

instance (op : LoadOp) (s : Playback) : Decidable (FitsLoad op s) :=
  inferInstanceAs (Decidable (_ = true))

def Settled (s : Playback) : Prop := ∀ task ∈ s.tasks, task.stage = .done

structure Handing (s : Playback) : Prop where
  noFallback : s.audioFallbackActive = false
  jobs : ∀ task ∈ s.tasks, ∀ row, task.job ≠ .fallback row
  plays : ∀ task ∈ s.tasks, task.play ≤ s.plays
  songs : ∀ task ∈ s.tasks, ∀ row closeFirst, task.job = .song row closeFirst → s.hasAudio = true
  videos : ∀ task ∈ s.tasks, ∀ row, task.job = .video row → task.stage = .load → s.hasVideo = true
  hasAudio : s.audio ≠ none → s.hasAudio = true
  hasVideo : s.video ≠ none → s.hasVideo = true
  audio : s.audio ≠ none → s.queueVideoActive = false ∨ ∃ task ∈ s.tasks, task.Stops
  video : s.video ≠ none → s.queueVideoActive = true ∨ ∃ task ∈ s.tasks, task.Closes

structure Loaded (s : Playback) : Prop extends Handing s where
  aligned : s.app.Aligned
  active : s.queueVideoActive = true ↔ ∃ row, s.currentlyPlaying = some (.video row)
  idle : s.currentlyPlaying = none → s.audio ≠ none → ∃ task ∈ s.tasks, task.Stops
  own : ∀ task ∈ s.tasks, task.play = s.plays → ∀ entry, task.job.entry = some entry →
    s.currentlyPlaying = some entry
  last : ∀ entry, s.currentlyPlaying = some entry →
    s.lastLoad = some (s.plays, entry) ∨
      ∃ task ∈ s.tasks, task.play = s.plays ∧ task.job.entry = some entry ∧ task.stage ≠ .done

theorem currentlyPlaying_moved (s : Playback) (idx : Nat) (cause : Cause) :
    (s.moved idx cause).currentlyPlaying = s.app.queue[idx]? := by
  unfold currentlyPlaying moved App.playIndex
  dsimp only
  split
  · rename_i beyond
    exact (List.getElem?_eq_none beyond).symm
  · exact List.getElem?_drop

variable {s : Playback} {idx : Nat} {cause : Cause}

variable {new : List LoadTask}

/-- What the tasks of earlier plays leave to be said about the task of a new one. -/
theorem Handing.starts (handing : s.Handing) {next : Playback}
    (frame : next.tasks = s.tasks ++ new ∧ next.plays = s.plays + 1 ∧ next.hasAudio = s.hasAudio ∧
      next.hasVideo = s.hasVideo ∧ next.audio = s.audio ∧ next.video = s.video ∧
      next.audioFallbackActive = false)
    (latest : ∀ task ∈ new, task.play = s.plays + 1 ∧ task.stage = .silence ∧
      (∀ row, task.job ≠ .fallback row) ∧
      ∀ row closeFirst, task.job = .song row closeFirst → s.hasAudio = true)
    (audio : s.audio ≠ none → next.queueVideoActive = false ∨ ∃ task ∈ next.tasks, task.Stops)
    (video : s.video ≠ none → next.queueVideoActive = true ∨ ∃ task ∈ next.tasks, task.Closes) :
    next.Handing := by
  obtain ⟨tasks, plays, hasAudio, hasVideo, sameAudio, sameVideo, noFallback⟩ := frame
  have either {task : LoadTask} (listed : task ∈ next.tasks) : task ∈ s.tasks ∨ task ∈ new := by
    rw [tasks] at listed
    exact List.mem_append.mp listed
  constructor
  · exact noFallback
  · intro task listed
    rcases either listed with before | now
    · exact handing.jobs task before
    · exact (latest task now).2.2.1
  · intro task listed
    rw [plays]
    rcases either listed with before | now
    · exact Nat.le_succ_of_le (handing.plays task before)
    · exact Nat.le_of_eq (latest task now).1
  · intro task listed
    rw [hasAudio]
    rcases either listed with before | now
    · exact handing.songs task before
    · exact (latest task now).2.2.2
  · intro task listed row job stage
    rw [hasVideo]
    rcases either listed with before | now
    · exact handing.videos task before row job stage
    · cases (latest task now).2.1.symm.trans stage
  · rw [sameAudio, hasAudio]
    exact handing.hasAudio
  · rw [sameVideo, hasVideo]
    exact handing.hasVideo
  · rw [sameAudio]
    exact audio
  · rw [sameVideo]
    exact video

/-- The tasks of earlier plays load nothing that the new play is about. -/
theorem Handing.own (handing : s.Handing) {playing : Option QueueEntry}
    (latest : ∀ task ∈ new, ∀ entry, task.job.entry = some entry → playing = some entry) :
    ∀ task ∈ s.tasks ++ new, task.play = s.plays + 1 → ∀ entry, task.job.entry = some entry →
      playing = some entry := by
  intro task listed play entry loads
  rcases List.mem_append.mp listed with before | now
  · have le := handing.plays task before
    omega
  · exact latest task now entry loads

theorem exists_append {p : LoadTask → Prop} {tasks : List LoadTask}
    (before : ∃ task ∈ tasks, p task) : ∃ task ∈ tasks ++ new, p task := by
  obtain ⟨task, listed, holds⟩ := before
  exact ⟨task, List.mem_append_left _ listed, holds⟩

theorem Handing.playSong (handing : s.Handing) {row : SongRow}
    (there : s.app.queue[idx]? = some (.song row)) (audible : s.hasAudio = true) :
    (s.playIndex idx cause).Loaded := by
  have played : s.playIndex idx cause = ({ s.moved idx cause with
      queueVideoActive := false, audioFallbackActive := false, pendingSongId := some row.id } :
      Playback).spawn (.song row (s.queueVideoActive && s.hasVideo)) := by
    unfold playIndex
    rw [there, handing.noFallback, Bool.or_false]
    exact congrArg (fun there => spawnIf _ there _) audible
  have playing : (s.playIndex idx cause).currentlyPlaying = some (.song row) := by
    rw [played]
    exact (currentlyPlaying_moved s idx cause).trans there
  let new : LoadTask := ⟨s.plays + 1, .song row (s.queueVideoActive && s.hasVideo), .silence⟩
  have listed : new ∈ s.tasks ++ [new] := List.mem_append_right _ List.mem_cons_self
  have closes (loaded : s.video ≠ none) : ∃ task ∈ s.tasks ++ [new], task.Closes := by
    rcases handing.video loaded with active | before
    · refine ⟨new, listed, rfl, .inr ⟨row, ?_⟩⟩
      show Job.song row (s.queueVideoActive && s.hasVideo) = _
      rw [active, handing.hasVideo loaded]
      rfl
    · exact exists_append before
  rw [played] at playing ⊢
  refine ⟨handing.starts ⟨rfl, rfl, rfl, rfl, rfl, rfl, rfl⟩ ?_ (fun _ => .inl rfl)
    (fun loaded => .inr (closes loaded)), App.aligned_playIndex _ _, ?_, ?_, ?_, ?_⟩
  · intro task member
    obtain rfl := List.mem_singleton.mp member
    exact ⟨rfl, rfl, fun _ => nofun, fun _ _ _ => audible⟩
  · rw [playing]
    exact ⟨nofun, fun ⟨_, same⟩ => nomatch same⟩
  · rw [playing]
    exact nofun
  · rw [playing]
    refine handing.own fun task member entry loads => ?_
    obtain rfl := List.mem_singleton.mp member
    exact loads
  · intro entry same
    rw [playing] at same
    exact .inr ⟨new, listed, rfl, same, nofun⟩

theorem Handing.playVideo (handing : s.Handing) {row : QueuedVideoRow}
    (there : s.app.queue[idx]? = some (.video row)) : (s.playIndex idx cause).Loaded := by
  have played : s.playIndex idx cause = ({ s.moved idx cause with
      queueVideoActive := true, audioFallbackActive := false, pendingSongId := none } :
      Playback).spawn (.video row) := by
    unfold playIndex
    rw [there]
  have playing : (s.playIndex idx cause).currentlyPlaying = some (.video row) := by
    rw [played]
    exact (currentlyPlaying_moved s idx cause).trans there
  let new : LoadTask := ⟨s.plays + 1, .video row, .silence⟩
  have listed : new ∈ s.tasks ++ [new] := List.mem_append_right _ List.mem_cons_self
  have stops : ∃ task ∈ s.tasks ++ [new], task.Stops := ⟨new, listed, rfl, .inr ⟨row, rfl⟩⟩
  rw [played] at playing ⊢
  refine ⟨handing.starts ⟨rfl, rfl, rfl, rfl, rfl, rfl, rfl⟩ ?_ (fun _ => .inr stops)
    (fun _ => .inl rfl), App.aligned_playIndex _ _, ?_, ?_, ?_, ?_⟩
  · intro task member
    obtain rfl := List.mem_singleton.mp member
    exact ⟨rfl, rfl, fun _ => nofun, fun _ _ => nofun⟩
  · rw [playing]
    exact ⟨fun _ => ⟨row, rfl⟩, fun _ => rfl⟩
  · rw [playing]
    exact nofun
  · rw [playing]
    refine handing.own fun task member entry loads => ?_
    obtain rfl := List.mem_singleton.mp member
    exact loads
  · intro entry same
    rw [playing] at same
    exact .inr ⟨new, listed, rfl, same, nofun⟩

/-- Behind the last entry of the queue, with the tasks that are begun there. -/
theorem Handing.ends (handing : s.Handing) (beyond : s.app.queue[idx]? = none)
    {new : List LoadTask} (jobs : ∀ task ∈ new, task.play = s.plays + 1 ∧ task.stage = .silence ∧
      (task.job = .stopAudio ∨ task.job = .closeVideo))
    (stops : s.audio ≠ none → ∃ task ∈ s.tasks ++ new, task.Stops)
    (closes : s.video ≠ none → ∃ task ∈ s.tasks ++ new, task.Closes) :
    ({ s.moved idx cause with
      queueVideoActive := false, audioFallbackActive := false, pendingSongId := none
      tasks := s.tasks ++ new } : Playback).Loaded := by
  have playing := (currentlyPlaying_moved s idx cause).trans beyond
  refine ⟨handing.starts ⟨rfl, rfl, rfl, rfl, rfl, rfl, rfl⟩ ?_ (fun _ => .inl rfl)
    (fun loaded => .inr (closes loaded)), App.aligned_playIndex _ _, ?_, fun _ => stops, ?_, ?_⟩
  · intro task member
    obtain ⟨play, stage, job | job⟩ := jobs task member
    · exact ⟨play, stage, fun _ => by rw [job]; exact nofun, fun _ _ => by rw [job]; exact nofun⟩
    · exact ⟨play, stage, fun _ => by rw [job]; exact nofun, fun _ _ => by rw [job]; exact nofun⟩
  · refine ⟨nofun, fun ⟨row, same⟩ => ?_⟩
    cases playing.symm.trans same
  · refine handing.own fun task member entry loads => ?_
    obtain ⟨_, _, job | job⟩ := jobs task member
    · rw [job] at loads
      cases loads
    · rw [job] at loads
      cases loads
  · intro entry same
    cases playing.symm.trans same

theorem Handing.playNone (handing : s.Handing) (beyond : s.app.queue[idx]? = none) :
    (s.playIndex idx cause).Loaded := by
  have single {job : Job} (plain : job = .stopAudio ∨ job = .closeVideo) (task : LoadTask)
      (member : task ∈ [(⟨s.plays + 1, job, .silence⟩ : LoadTask)]) :
      task.play = s.plays + 1 ∧ task.stage = .silence ∧
        (task.job = .stopAudio ∨ task.job = .closeVideo) := by
    obtain rfl := List.mem_singleton.mp member
    exact ⟨rfl, rfl, plain⟩
  have last (job : Job) : (⟨s.plays + 1, job, .silence⟩ : LoadTask) ∈
      s.tasks ++ [(⟨s.plays + 1, job, .silence⟩ : LoadTask)] :=
    List.mem_append_right _ List.mem_cons_self
  unfold playIndex
  rw [beyond, handing.noFallback, Bool.or_false]
  dsimp only
  cases active : s.queueVideoActive with
  | true =>
    have stops (new : List LoadTask) (loaded : s.audio ≠ none) :
        ∃ task ∈ s.tasks ++ new, task.Stops := by
      rcases handing.audio loaded with inactive | before
      · cases active.symm.trans inactive
      · exact exists_append before
    rw [if_pos rfl]
    cases known : s.hasVideo with
    | false =>
      have closes (loaded : s.video ≠ none) : ∃ task ∈ s.tasks ++ [], task.Closes := by
        cases known.symm.trans (handing.hasVideo loaded)
      have quiet := @Handing.ends s idx cause handing beyond [] (fun _ => nofun) (stops []) closes
      rw [List.append_nil] at quiet
      exact quiet
    | true =>
      exact handing.ends beyond (single (.inr rfl)) (stops _)
        fun _ => ⟨_, last .closeVideo, rfl, .inl rfl⟩
  | false =>
    have closes (new : List LoadTask) (loaded : s.video ≠ none) :
        ∃ task ∈ s.tasks ++ new, task.Closes := by
      rcases handing.video loaded with wrong | before
      · cases active.symm.trans wrong
      · exact exists_append before
    rw [if_neg Bool.false_ne_true]
    cases known : s.hasAudio with
    | false =>
      have stops (loaded : s.audio ≠ none) : ∃ task ∈ s.tasks ++ [], task.Stops := by
        cases known.symm.trans (handing.hasAudio loaded)
      have quiet := @Handing.ends s idx cause handing beyond [] (fun _ => nofun) stops (closes [])
      rw [List.append_nil] at quiet
      exact quiet
    | true =>
      exact handing.ends beyond (single (.inl rfl)) (fun _ => ⟨_, last .stopAudio, rfl, .inl rfl⟩)
        (closes _)

theorem Handing.play (handing : s.Handing)
    (audible : (s.hasAudio || ((s.app.queue[idx]?).bind QueueEntry.songId?).isNone) = true) :
    (s.playIndex idx cause).Loaded := by
  cases there : s.app.queue[idx]? with
  | none => exact handing.playNone there
  | some entry =>
    cases entry with
    | song row =>
      rw [there] at audible
      exact handing.playSong there ((Bool.or_false _).symm.trans audible)
    | video row => exact handing.playVideo there

section Tasks

variable {index : Nat} {task : LoadTask}

structure Goes (s next : Playback) (index : Nat) (task : LoadTask) (stage : LoadStage) : Prop where
  frame : next.app = s.app ∧ next.plays = s.plays ∧ next.hasAudio = s.hasAudio ∧
    next.hasVideo = s.hasVideo ∧ next.queueVideoActive = s.queueVideoActive ∧
    next.audioFallbackActive = s.audioFallbackActive
  tasks : next.tasks = s.tasks.modify index fun task => { task with stage := stage }
  later : stage ≠ .silence
  there : s.tasks[index]? = some task
  backend : ∀ row, task.job = .video row → stage = .load → s.hasVideo = true
  audio : next.audio = none ∨ next.audio = s.audio ∧ ¬task.Stops ∨
    s.hasAudio = true ∧ ∃ row, s.currentlyPlaying = some (.song row)
  video : next.video = none ∨ next.video = s.video ∧ ¬task.Closes ∨
    s.hasVideo = true ∧ ∃ row, s.currentlyPlaying = some (.video row)
  last : next.lastLoad = s.lastLoad ∧
      (stage ≠ .done ∨ task.play ≠ s.plays ∨ task.job.entry = none) ∨
    ∃ entry, s.currentlyPlaying = some entry ∧ next.lastLoad = some (s.plays, entry)

theorem Goes.tasksKept {next : Playback} {stage : LoadStage} (goes : Goes s next index task stage)
    {p : LoadTask → Prop} (before : ∃ task ∈ s.tasks, p task)
    (keeps : p task → p { task with stage := stage }) : ∃ task ∈ next.tasks, p task := by
  rw [goes.tasks]
  exact exists_modify goes.there keeps before

theorem Loaded.goes (loaded : s.Loaded) {next : Playback} {stage : LoadStage}
    (goes : Goes s next index task stage) : next.Loaded := by
  obtain ⟨app, plays, hasAudio, hasVideo, active, fallback⟩ := goes.frame
  have playing : next.currentlyPlaying = s.currentlyPlaying := by
    unfold currentlyPlaying
    rw [app]
  have known : task ∈ s.tasks := List.mem_of_getElem? goes.there
  have either {p : LoadTask → Prop} (all : ∀ task ∈ s.tasks, p task)
      (changed : p { task with stage := stage }) (task' : LoadTask) (listed : task' ∈ next.tasks) :
      p task' := by
    rw [goes.tasks] at listed
    rcases mem_modify goes.there listed with before | rfl
    · exact all task' before
    · exact changed
  have stops (same : next.audio = s.audio ∧ ¬task.Stops) (before : ∃ task ∈ s.tasks, task.Stops) :
      ∃ task ∈ next.tasks, task.Stops :=
    goes.tasksKept before fun wrong => absurd wrong same.2
  have closes (same : next.video = s.video ∧ ¬task.Closes)
      (before : ∃ task ∈ s.tasks, task.Closes) : ∃ task ∈ next.tasks, task.Closes :=
    goes.tasksKept before fun wrong => absurd wrong same.2
  refine ⟨⟨?_, ?_, ?_, ?_, ?_, ?_, ?_, ?_, ?_⟩, app ▸ loaded.aligned, ?_, ?_, ?_, ?_⟩
  · rw [fallback]
    exact loaded.noFallback
  · exact either loaded.jobs (loaded.jobs task known)
  · rw [plays]
    exact either loaded.plays (loaded.plays task known)
  · rw [hasAudio]
    exact either loaded.songs (loaded.songs task known)
  · rw [hasVideo]
    exact either loaded.videos goes.backend
  · intro present
    rw [hasAudio]
    rcases goes.audio with none | same | ⟨audible, _⟩
    · exact absurd none present
    · exact loaded.hasAudio (same.1 ▸ present)
    · exact audible
  · intro present
    rw [hasVideo]
    rcases goes.video with none | same | ⟨visible, _⟩
    · exact absurd none present
    · exact loaded.hasVideo (same.1 ▸ present)
    · exact visible
  · intro present
    rw [active]
    rcases goes.audio with none | same | ⟨_, row, song⟩
    · exact absurd none present
    · exact (loaded.audio (same.1 ▸ present)).imp_right (stops same)
    · refine .inl (Bool.eq_false_iff.mpr fun isActive => ?_)
      obtain ⟨row', video⟩ := loaded.active.mp isActive
      cases song.symm.trans video
  · intro present
    rw [active]
    rcases goes.video with none | same | ⟨_, video⟩
    · exact absurd none present
    · exact (loaded.video (same.1 ▸ present)).imp_right (closes same)
    · exact .inl (loaded.active.mpr video)
  · rw [active, playing]
    exact loaded.active
  · rw [playing]
    intro idle present
    rcases goes.audio with none | same | ⟨_, row, song⟩
    · exact absurd none present
    · exact stops same (loaded.idle idle (same.1 ▸ present))
    · cases idle.symm.trans song
  · rw [plays, playing]
    exact either loaded.own (loaded.own task known)
  · rw [plays, playing]
    intro entry current
    rcases goes.last with ⟨same, open_⟩ | ⟨entry', current', loads⟩
    · rw [same]
      refine (loaded.last entry current).imp_right fun before => goes.tasksKept before ?_
      rintro ⟨latest, named, _⟩
      refine ⟨latest, named, ?_⟩
      rcases open_ with open_ | other | none
      · exact open_
      · exact absurd latest other
      · rw [none] at named
        cases named
    · cases current.symm.trans current'
      exact .inl loads

theorem not_stops (stage : task.stage ≠ .silence) : ¬task.Stops := fun stops => stage stops.1

theorem not_closes (stage : task.stage ≠ .silence) : ¬task.Closes := fun closes => stage closes.1

theorem Loaded.silence (loaded : s.Loaded) (there : s.tasks[index]? = some task) :
    (s.silence index task.job).Loaded := by
  have known : task ∈ s.tasks := List.mem_of_getElem? there
  unfold Playback.silence
  cases job : task.job with
  | stopAudio =>
    have closes : ¬task.Closes := by
      rintro ⟨_, wrong | ⟨_, wrong⟩⟩ <;> cases job.symm.trans wrong
    exact loaded.goes ⟨⟨rfl, rfl, rfl, rfl, rfl, rfl⟩, rfl, nofun, there, fun _ _ => nofun,
      .inl rfl, .inr (.inl ⟨rfl, closes⟩), .inl ⟨rfl, .inr (.inr (by rw [job]; rfl))⟩⟩
  | closeVideo =>
    have stops : ¬task.Stops := by
      rintro ⟨_, wrong | ⟨_, wrong⟩⟩ <;> cases job.symm.trans wrong
    exact loaded.goes ⟨⟨rfl, rfl, rfl, rfl, rfl, rfl⟩, rfl, nofun, there, fun _ _ => nofun,
      .inr (.inl ⟨rfl, stops⟩), .inl rfl, .inl ⟨rfl, .inr (.inr (by rw [job]; rfl))⟩⟩
  | song row closeFirst =>
    have stops : ¬task.Stops := by
      rintro ⟨_, wrong | ⟨_, wrong⟩⟩ <;> cases job.symm.trans wrong
    refine loaded.goes ⟨⟨rfl, rfl, rfl, rfl, rfl, rfl⟩, rfl, nofun, there, fun _ _ => nofun,
      .inr (.inl ⟨rfl, stops⟩), ?_, .inl ⟨rfl, .inl nofun⟩⟩
    cases closeFirst with
    | true => exact .inl rfl
    | false =>
      refine .inr (.inl ⟨rfl, ?_⟩)
      rintro ⟨_, wrong | ⟨_, wrong⟩⟩ <;> cases job.symm.trans wrong
  | video row =>
    have closes : ¬task.Closes := by
      rintro ⟨_, wrong | ⟨_, wrong⟩⟩ <;> cases job.symm.trans wrong
    exact loaded.goes ⟨⟨rfl, rfl, rfl, rfl, rfl, rfl⟩, rfl, nofun, there, fun _ _ => nofun,
      .inl rfl, .inr (.inl ⟨rfl, closes⟩), .inl ⟨rfl, .inl nofun⟩⟩
  | fallback row => exact absurd job (loaded.jobs task known row)

/-- A task goes on behind its first step and leaves the backends as they are. -/
theorem Loaded.passes (loaded : s.Loaded) (there : s.tasks[index]? = some task)
    (begun : task.stage ≠ .silence) (stage : LoadStage) (later : stage ≠ .silence)
    (backend : ∀ row, task.job = .video row → stage = .load → s.hasVideo = true)
    (stays : stage ≠ .done ∨ task.play ≠ s.plays) (events : List (PlayerEvent × Option Nat)) :
    ({ s with events := events } : Playback).setStage index stage |>.Loaded :=
  loaded.goes ⟨⟨rfl, rfl, rfl, rfl, rfl, rfl⟩, rfl, later, there, backend,
    .inr (.inl ⟨rfl, not_stops begun⟩), .inr (.inl ⟨rfl, not_closes begun⟩),
    .inl ⟨rfl, stays.imp_right .inl⟩⟩

theorem Loaded.resolve (loaded : s.Loaded) (there : s.tasks[index]? = some task)
    (stage : task.stage = .resolve) {success : Bool}
    (finds : task.play ≠ s.plays ∨ s.found success task.job = true) :
    (s.resolve index task success).Loaded := by
  have known : task ∈ s.tasks := List.mem_of_getElem? there
  have begun : task.stage ≠ .silence := by rw [stage]; exact nofun
  have fails (none : ¬s.found success task.job = true) (events : List PlayerEvent) :
      (s.giveUp index task events).Loaded :=
    loaded.passes there begun .done nofun (fun _ _ => nofun) (.inr (finds.resolve_right none)) _
  unfold Playback.resolve
  cases job : task.job with
  | song row closeFirst =>
    dsimp only
    split
    · exact loaded.passes there begun .load nofun (fun _ wrong => nomatch job.symm.trans wrong)
        (.inl nofun) s.events
    · rename_i none
      exact fails (by rw [job]; exact none) _
  | video row =>
    dsimp only
    split
    · rename_i found
      exact loaded.passes there begun .load nofun (fun _ _ _ => (Bool.and_eq_true_iff.mp found).1)
        (.inl nofun) s.events
    · rename_i none
      exact fails (by rw [job]; exact none) _
  | fallback row => exact absurd job (loaded.jobs task known row)
  | stopAudio => exact loaded
  | closeVideo => exact loaded

theorem Loaded.load (loaded : s.Loaded) (there : s.tasks[index]? = some task)
    (stage : task.stage = .load) {success : Bool}
    (latest : success = decide (task.play = s.plays)) : (s.load index task success).Loaded := by
  have known : task ∈ s.tasks := List.mem_of_getElem? there
  have begun : task.stage ≠ .silence := by rw [stage]; exact nofun
  have fails (refused : ¬success = true) (events : List PlayerEvent) :
      (s.giveUp index task events).Loaded := by
    refine loaded.passes there begun .done nofun (fun _ _ => nofun) (.inr fun same => refused ?_) _
    rw [latest]
    exact decide_eq_true same
  have play (accepted : success = true) : task.play = s.plays :=
    of_decide_eq_true (latest.symm.trans accepted)
  unfold Playback.load
  cases job : task.job with
  | song row closeFirst =>
    dsimp only
    split
    · rename_i accepted
      have current : s.currentlyPlaying = some (.song row) :=
        loaded.own task known (play accepted) _ (by rw [job]; rfl)
      refine loaded.goes ⟨⟨rfl, rfl, rfl, rfl, rfl, rfl⟩, rfl, nofun, there, fun _ _ => nofun,
        .inr (.inr ⟨loaded.songs task known row closeFirst job, row, current⟩),
        .inr (.inl ⟨rfl, not_closes begun⟩), .inr ⟨_, current, ?_⟩⟩
      rw [← play accepted]
      rfl
    · rename_i refused
      exact fails refused _
  | video row =>
    dsimp only
    split
    · rename_i accepted
      have current : s.currentlyPlaying = some (.video row) :=
        loaded.own task known (play accepted) _ (by rw [job]; rfl)
      refine loaded.goes ⟨⟨rfl, rfl, rfl, rfl, rfl, rfl⟩, rfl, nofun, there, fun _ _ => nofun,
        .inr (.inl ⟨rfl, not_stops begun⟩),
        .inr (.inr ⟨loaded.videos task known row job stage, row, current⟩), .inr ⟨_, current, ?_⟩⟩
      rw [← play accepted]
      rfl
    · rename_i refused
      exact fails refused _
  | fallback row => exact absurd job (loaded.jobs task known row)
  | stopAudio => exact loaded
  | closeVideo => exact loaded

theorem Loaded.advance (loaded : s.Loaded) {success : Bool}
    (fits : (s.tasks[index]?).all (s.fitsTask · success) = true) :
    (s.advance index success).Loaded := by
  unfold Playback.advance
  split
  · rename_i task there
    rw [there, Option.all_some] at fits
    unfold fitsTask at fits
    split
    · exact loaded.silence there
    · rename_i stage
      rw [stage] at fits
      refine loaded.resolve there stage ?_
      rcases Bool.or_eq_true_iff.mp fits with other | finds
      · exact .inl (of_decide_eq_true other)
      · exact .inr finds
    · rename_i stage
      rw [stage] at fits
      exact loaded.load there stage (of_decide_eq_true fits)
    · exact loaded
  · exact loaded

end Tasks

theorem Loaded.requeue (loaded : s.Loaded) {queue : List QueueEntry}
    (aligned : ({ s.app with queue := queue } : App QueueEntry).Aligned)
    (playing : ({ s with app := { s.app with queue := queue } } : Playback).currentlyPlaying =
      s.currentlyPlaying) :
    ({ s with app := { s.app with queue := queue } } : Playback).Loaded := by
  refine ⟨⟨loaded.noFallback, loaded.jobs, loaded.plays, loaded.songs, loaded.videos,
    loaded.hasAudio, loaded.hasVideo, loaded.audio, loaded.video⟩, aligned, ?_, ?_, ?_, ?_⟩
  · rw [playing]
    exact loaded.active
  · rw [playing]
    exact loaded.idle
  · rw [playing]
    exact loaded.own
  · rw [playing]
    exact loaded.last

theorem Handing.requeue (handing : s.Handing) (queue : List QueueEntry) :
    ({ s with app := { s.app with queue := queue } } : Playback).Handing :=
  ⟨handing.noFallback, handing.jobs, handing.plays, handing.songs, handing.videos,
    handing.hasAudio, handing.hasVideo, handing.audio, handing.video⟩

theorem getElem?_eraseIdx_zero (queue : List QueueEntry) : (queue.eraseIdx 0)[0]? = queue[1]? := by
  cases queue <;> rfl

theorem Loaded.removeFromQueue (loaded : s.Loaded) {index : Nat}
    (audible : (s.hasAudio || ((s.starts (.removeFromQueue index)).bind
      QueueEntry.songId?).isNone) = true) : (s.removeFromQueue index).Loaded := by
  have aligned := App.aligned_removeFromQueue loaded.aligned index
  unfold App.removeFromQueue at aligned
  unfold Playback.removeFromQueue
  split
  · exact loaded
  · rename_i inside
    rw [if_neg inside] at aligned
    dsimp only at aligned ⊢
    split
    · rename_i first
      subst first
      refine (loaded.toHanding.requeue _).play ?_
      show (s.hasAudio || (((s.app.queue.eraseIdx 0)[0]?).bind QueueEntry.songId?).isNone) = true
      rw [getElem?_eraseIdx_zero]
      exact audible
    · rename_i later
      rw [if_neg later] at aligned
      refine loaded.requeue aligned ?_
      have current := loaded.aligned
      unfold App.Aligned at current
      unfold currentlyPlaying
      dsimp only
      rw [current]
      split
      · rfl
      · exact List.getElem?_eraseIdx_of_lt (Nat.pos_of_ne_zero later)

theorem step_loaded (op : LoadOp) (s : Playback) (fits : FitsLoad op s) (loaded : s.Loaded) :
    (loadStep op s).Loaded := by
  obtain ⟨audible, rest⟩ := Bool.and_eq_true_iff.mp fits
  cases op with
  | setQueueEntries entries start => exact (loaded.toHanding.requeue entries).play audible
  | playIndex idx => exact loaded.toHanding.play audible
  | playNext => exact loaded.toHanding.play audible
  | removeFromQueue index => exact loaded.removeFromQueue audible
  | advance task success => exact loaded.advance rest

theorem idle_loaded (hasAudio hasVideo : Bool) : (idle hasAudio hasVideo).Loaded := by
  have none {p : LoadTask → Prop} : ∀ task ∈ (idle hasAudio hasVideo).tasks, p task :=
    fun task none => absurd none List.not_mem_nil
  exact ⟨⟨rfl, none, none, none, none, fun wrong => absurd rfl wrong, fun wrong => absurd rfl wrong,
    fun _ => .inl rfl, fun wrong => absurd rfl wrong⟩, rfl,
    ⟨nofun, fun ⟨_, wrong⟩ => nomatch wrong⟩, fun _ wrong => absurd rfl wrong, none, fun _ => nofun⟩

/-- When no item is loaded after a later play, the last load is that of the current entry once all
tasks are through; nothing is loaded when the queue has run out, and one backend at most has an item
in any case. -/
theorem loaded_is_current (hasAudio hasVideo : Bool) (ops : List LoadOp)
    (meets : Meets loadStep FitsLoad ops (idle hasAudio hasVideo)) :
    let s := runAll loadStep ops (idle hasAudio hasVideo)
    s.Settled →
      (∀ entry, s.app.queue.head? = some entry → s.lastLoad = some (s.plays, entry)) ∧
      (s.app.queue = [] → s.audio = none ∧ s.video = none) ∧
      (s.audio = none ∨ s.video = none) := by
  intro s settled
  have loaded : s.Loaded := meets.keeps step_loaded (idle_loaded hasAudio hasVideo)
  have noneLeft {p : LoadTask → Prop} (opens : ∀ task, p task → task.stage ≠ .done) :
      ¬∃ task ∈ s.tasks, p task := by
    rintro ⟨task, listed, holds⟩
    exact opens task holds (settled task listed)
  have stopped : ¬∃ task ∈ s.tasks, task.Stops := noneLeft fun task stops => by
    rw [stops.1]
    exact nofun
  have closed : ¬∃ task ∈ s.tasks, task.Closes := noneLeft fun task closes => by
    rw [closes.1]
    exact nofun
  have playing : s.currentlyPlaying = s.app.queue.head? := by
    have aligned := loaded.aligned
    unfold App.Aligned at aligned
    unfold currentlyPlaying
    rw [aligned]
    cases s.app.queue <;> rfl
  have inactive (loud : s.audio ≠ none) : s.queueVideoActive = false :=
    (loaded.audio loud).resolve_right stopped
  have active (shown : s.video ≠ none) : s.queueVideoActive = true :=
    (loaded.video shown).resolve_right closed
  refine ⟨fun entry first => ?_, fun empty => ⟨?_, ?_⟩, ?_⟩
  · refine (loaded.last entry (playing.trans first)).resolve_right (noneLeft fun task loads => ?_)
    exact loads.2.2
  · by_contra loud
    refine stopped (loaded.idle ?_ loud)
    rw [playing, empty]
    rfl
  · by_contra shown
    obtain ⟨row, current⟩ := loaded.active.mp (active shown)
    rw [playing, empty] at current
    cases current
  · by_contra both
    obtain ⟨loud, shown⟩ := not_or.mp both
    cases (inactive loud).symm.trans (active shown)

def flac : QueueEntry := .song ⟨"f", "flac", none, none, none, some "/f.flac", none, none⟩

def mkv : QueueEntry := .video ⟨"k", "mkv", none, none, some "/k.mkv", none⟩

def oneByOne : List LoadOp :=
  [.setQueueEntries [flac, mkv] 0, .advance 0 true, .advance 0 true, .advance 0 true, .playNext,
    .advance 1 true, .advance 1 true, .advance 1 true, .playNext, .advance 2 true]

def slowResolve : List LoadOp :=
  [.setQueueEntries [flac, mkv] 0, .advance 0 true, .playNext, .advance 1 true, .advance 1 true,
    .advance 1 true, .advance 0 true, .advance 0 true]

theorem loaded_is_current_one_by_one :
    let s := runAll loadStep oneByOne (idle true true)
    s.Settled →
      (∀ entry, s.app.queue.head? = some entry → s.lastLoad = some (s.plays, entry)) ∧
      (s.app.queue = [] → s.audio = none ∧ s.video = none) ∧
      (s.audio = none ∨ s.video = none) :=
  loaded_is_current true true oneByOne (by decide)

instance (s : Playback) : Decidable s.Settled := inferInstanceAs (Decidable (∀ task ∈ _, _))

/-- The song that was left is loaded last, and the video is loaded as well. -/
theorem abandoned_is_loaded :
    let s := runAll loadStep slowResolve (idle true true)
    s.Settled ∧ s.app.queue = [mkv] ∧ s.lastLoad = some (1, flac) ∧ s.plays = 2 ∧
      s.audio = some 1 ∧ s.video = some 2 := by
  decide

end Playback

end Tomb.Rathole
