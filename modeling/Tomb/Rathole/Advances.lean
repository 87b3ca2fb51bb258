import Mathlib.Data.List.Nodup
import Tomb.Rathole.Playback

/-! Which events make rathole's queue advance. -/
namespace Tomb.Rathole
open Lib

namespace Playback

section Conditions

variable (s : Playback)

def advances : PlayerEvent → Bool
  | .playing | .error => false
  | .ended => !s.loadFailed || !s.hasVideo
  | .videoEnded | .videoClosed | .videoError => s.queueVideoActive || s.audioFallbackActive

/-- An event that makes the queue advance comes from the play of the entry that is current. -/
def Fits : PlaybackOp → Playback → Prop
  | .deliver, s => ∀ next ∈ s.events.head?, s.advances next.1 = true →
      s.app.current.isSome = true ∧ next.2 = some s.plays
  | _, _ => True

instance : (op : PlaybackOp) → (s : Playback) → Decidable (Fits op s)
  | .deliver, _ => inferInstanceAs (Decidable (∀ next ∈ _, _))
  | .load _, _ | .audioPlays, _ | .audioEnds _, _ | .videoEnds, _ | .videoFails, _
  | .videoCloses, _ => .isTrue trivial

end Conditions

def outcomes (s : Playback) : List (Option Nat) :=
  s.moves.filterMap fun move => match move.cause with
    | .outcome play => some play
    | .user => none

structure Recorded (s : Playback) : Prop where
  /-- Entries were skipped, or their own play came to its end. -/
  own : ∀ move ∈ s.moves, move.cause = .user ∨
    ∃ play, move.cause = .outcome (some play) ∧ move.play = some play
  past : ∀ play ∈ s.outcomes, ∃ number, play = some number ∧ number < s.plays
  once : s.outcomes.Nodup
  history : ∀ entry ∈ s.app.history, ∃ move ∈ s.moves, move.entry = entry

structure Advanced (s : Playback) : Prop extends Recorded s where
  aligned : s.app.Aligned

variable {s next : Playback}

theorem Recorded.same (recorded : s.Recorded) (history : next.app.history = s.app.history)
    (plays : next.plays = s.plays) (moves : next.moves = s.moves) : next.Recorded := by
  obtain ⟨own, past, once, known⟩ := recorded
  refine ⟨moves ▸ own, ?_, ?_, ?_⟩
  · unfold outcomes at past ⊢
    rw [moves, plays]
    exact past
  · unfold outcomes at once ⊢
    rw [moves]
    exact once
  · rw [history, moves]
    exact known

theorem Advanced.same (advanced : s.Advanced) (app : next.app = s.app)
    (plays : next.plays = s.plays) (moves : next.moves = s.moves) : next.Advanced :=
  ⟨advanced.toRecorded.same (congrArg App.history app) plays moves, app ▸ advanced.aligned⟩

theorem spawnIf_app (condition : Bool) (job : Job) : (s.spawnIf condition job).app = s.app := by
  cases condition <;> rfl

theorem spawnIf_plays (condition : Bool) (job : Job) :
    (s.spawnIf condition job).plays = s.plays := by
  cases condition <;> rfl

theorem spawnIf_moves (condition : Bool) (job : Job) :
    (s.spawnIf condition job).moves = s.moves := by
  cases condition <;> rfl

theorem playIndex_moved (idx : Nat) (cause : Cause) :
    (s.playIndex idx cause).app = (s.moved idx cause).app ∧
      (s.playIndex idx cause).plays = (s.moved idx cause).plays ∧
      (s.playIndex idx cause).moves = (s.moved idx cause).moves := by
  unfold playIndex
  dsimp only
  split
  · split
    · exact ⟨spawnIf_app .., spawnIf_plays .., spawnIf_moves ..⟩
    · exact ⟨spawnIf_app .., spawnIf_plays .., spawnIf_moves ..⟩
  · exact ⟨spawnIf_app .., spawnIf_plays .., spawnIf_moves ..⟩
  · exact ⟨rfl, rfl, rfl⟩

variable {entry : QueueEntry}

theorem mem_pushHistory {history played : List QueueEntry}
    (member : entry ∈ App.pushHistory history played) : entry ∈ played ∨ entry ∈ history := by
  unfold App.pushHistory at member
  split at member
  · exact .inr member
  · rcases List.mem_append.mp (List.mem_of_mem_take member) with now | before
    · exact .inl (List.mem_reverse.mp now)
    · exact .inr before

variable {idx : Nat}

theorem history_playIndex {app : App QueueEntry} (member : entry ∈ (app.playIndex idx).history) :
    entry ∈ app.queue.take idx ∨ entry ∈ app.history := by
  unfold App.playIndex at member
  split at member
  · rename_i beyond
    rw [List.take_of_length_le beyond]
    exact mem_pushHistory member
  · exact mem_pushHistory member

theorem mem_leaves {cause : Cause}
    (member : entry ∈ s.app.queue.take idx) : ∃ move ∈ s.leaves idx cause, move.entry = entry := by
  obtain ⟨place, there⟩ := List.mem_iff_getElem?.mp member
  refine ⟨_, List.mem_map.mpr ⟨(entry, place), ?_, rfl⟩, rfl⟩
  exact List.mem_iff_getElem?.mpr ⟨place, by rw [List.getElem?_zipIdx, there]; simp⟩

theorem leaves_cause {cause : Cause} {move : Move}
    (member : move ∈ s.leaves idx cause) : move.cause = cause := by
  obtain ⟨_, _, rfl⟩ := List.mem_map.mp member
  rfl

theorem Recorded.moved (recorded : s.Recorded) {cause : Cause}
    (own : ∀ move ∈ s.leaves idx cause, move.cause = .user ∨
      ∃ play, move.cause = .outcome (some play) ∧ move.play = some play)
    (outcomes : (s.moved idx cause).outcomes = s.outcomes ∨
      (s.moved idx cause).outcomes = s.outcomes ++ [some s.plays]) :
    (s.playIndex idx cause).Advanced := by
  obtain ⟨app, plays, moves⟩ := playIndex_moved (s := s) idx cause
  refine Advanced.same (?_ : (s.moved idx cause).Advanced) app plays moves
  have earlier (number : Nat) (less : number < s.plays) : number < s.plays + 1 :=
    Nat.lt_succ_of_lt less
  refine ⟨⟨?_, ?_, ?_, ?_⟩, App.aligned_playIndex s.app idx⟩
  · intro move member
    rcases List.mem_append.mp member with before | now
    · exact recorded.own move before
    · exact own move now
  · intro play member
    have known (there : play ∈ s.outcomes) :
        ∃ number, play = some number ∧ number < s.plays + 1 := by
      obtain ⟨number, same, less⟩ := recorded.past play there
      exact ⟨number, same, earlier number less⟩
    rcases outcomes with same | more
    · exact known (same ▸ member)
    · rw [more] at member
      rcases List.mem_append.mp member with before | last
      · exact known before
      · exact ⟨s.plays, List.mem_singleton.mp last, Nat.lt_succ_self _⟩
  · rcases outcomes with same | more
    · rw [same]
      exact recorded.once
    · rw [more]
      refine List.Nodup.append recorded.once (List.nodup_singleton _) ?_
      refine List.disjoint_singleton.mpr fun there => ?_
      obtain ⟨number, same, less⟩ := recorded.past _ there
      cases same
      exact Nat.lt_irrefl _ less
  · intro entry member
    rcases history_playIndex member with now | before
    · obtain ⟨move, there, same⟩ := mem_leaves now
      exact ⟨move, List.mem_append_right _ there, same⟩
    · obtain ⟨move, there, same⟩ := recorded.history entry before
      exact ⟨move, List.mem_append_left _ there, same⟩

theorem Recorded.skip (recorded : s.Recorded) (idx : Nat) : (s.playIndex idx .user).Advanced := by
  refine recorded.moved (fun move member => .inl (leaves_cause member)) (.inl ?_)
  unfold outcomes Playback.moved
  rw [List.filterMap_append]
  have none : (s.leaves idx .user).filterMap (fun move => match move.cause with
      | .outcome play => some play
      | .user => none) = [] := by
    refine List.filterMap_eq_nil_iff.mpr fun move member => ?_
    rw [leaves_cause member]
  rw [none, List.append_nil]

/-- The queue advances by the outcome of the play that is current. -/
theorem Advanced.playNext (advanced : s.Advanced) (current : s.app.current.isSome = true) :
    (s.playNext (.outcome (some s.plays))).Advanced := by
  have aligned := advanced.aligned
  unfold App.Aligned at aligned
  unfold Playback.playNext
  cases queued : s.app.queue with
  | nil =>
    rw [queued, if_pos rfl] at aligned
    rw [aligned] at current
    cases current
  | cons entry rest =>
    rw [queued, if_neg (List.cons_ne_nil _ _)] at aligned
    have leaves : s.leaves 1 (.outcome (some s.plays)) =
        [⟨entry, some s.plays, .outcome (some s.plays)⟩] := by
      unfold Playback.leaves
      rw [queued, aligned]
      rfl
    rw [aligned]
    refine advanced.moved ?_ (.inr ?_)
    · show ∀ move ∈ s.leaves 1 _, _
      rw [leaves]
      intro move member
      obtain rfl := List.mem_singleton.mp member
      exact .inr ⟨s.plays, rfl, rfl⟩
    · show (s.moved 1 _).outcomes = _
      unfold outcomes Playback.moved
      rw [List.filterMap_append, leaves]
      rfl

/-- An event comes from the play of the entry that is current, if it makes the queue advance. -/
theorem Advanced.handle (advanced : s.Advanced) {event : PlayerEvent} {play : Option Nat}
    (own : s.advances event = true → s.app.current.isSome = true ∧ play = some s.plays) :
    (s.handle event (.outcome play)).Advanced := by
  have video (active : (s.queueVideoActive || s.audioFallbackActive) = true →
      s.app.current.isSome = true ∧ play = some s.plays) :
      (if (s.queueVideoActive || s.audioFallbackActive) = true then
        ({ s with audioFallbackActive := false } : Playback).playNext (.outcome play)
      else s).Advanced := by
    split
    · rename_i isActive
      obtain ⟨current, rfl⟩ := active isActive
      have cleared : ({ s with audioFallbackActive := false } : Playback).Advanced :=
        advanced.same rfl rfl rfl
      exact cleared.playNext current
    · exact advanced
  cases event with
  | playing => exact advanced.same rfl rfl rfl
  | error => exact advanced
  | ended =>
    unfold Playback.handle
    dsimp only
    split
    · rename_i failed
      have cleared : ({ s with pendingSongId := none } : Playback).Advanced :=
        advanced.same rfl rfl rfl
      unfold tryMpvAudioFallback
      dsimp only
      split
      · split
        · exact advanced.same rfl rfl rfl
        · rename_i absent
          obtain ⟨current, rfl⟩ := own (by
            unfold advances
            rw [failed, Bool.eq_false_iff.mpr absent]
            rfl)
          exact cleared.playNext current
      · rename_i other
        obtain ⟨pending, same⟩ := of_decide_eq_true failed
        rw [same] at pending
        obtain ⟨id, found⟩ := Option.isSome_iff_exists.mp pending
        obtain ⟨entry, playing, song⟩ := Option.bind_eq_some_iff.mp found
        cases entry with
        | song row => exact absurd playing (other row)
        | video row => cases song
    · rename_i went
      obtain ⟨current, rfl⟩ := own (by
        unfold advances
        rw [Bool.eq_false_iff.mpr went]
        rfl)
      exact advanced.playNext current
  | videoEnded => exact video own
  | videoClosed => exact video own
  | videoError => exact video own

theorem advance_keeps (s : Playback) (index : Nat) (success : Bool) :
    (s.advance index success).app = s.app ∧ (s.advance index success).plays = s.plays ∧
      (s.advance index success).moves = s.moves := by
  unfold advance
  split
  · rename_i task _
    split
    · unfold silence
      split <;> exact ⟨rfl, rfl, rfl⟩
    · unfold resolve
      split
      · split <;> exact ⟨rfl, rfl, rfl⟩
      · split <;> exact ⟨rfl, rfl, rfl⟩
      · split <;> exact ⟨rfl, rfl, rfl⟩
      · exact ⟨rfl, rfl, rfl⟩
      · exact ⟨rfl, rfl, rfl⟩
    · unfold load
      split
      · split <;> exact ⟨rfl, rfl, rfl⟩
      · split <;> exact ⟨rfl, rfl, rfl⟩
      · split <;> exact ⟨rfl, rfl, rfl⟩
      · exact ⟨rfl, rfl, rfl⟩
      · exact ⟨rfl, rfl, rfl⟩
    · exact ⟨rfl, rfl, rfl⟩
  · exact ⟨rfl, rfl, rfl⟩

theorem Advanced.removeFromQueue (advanced : s.Advanced) (index : Nat) :
    (s.removeFromQueue index).Advanced := by
  have aligned := App.aligned_removeFromQueue advanced.aligned index
  unfold App.removeFromQueue at aligned
  unfold Playback.removeFromQueue
  split
  · exact advanced
  · rename_i inside
    rw [if_neg inside] at aligned
    have recorded : ({ s with
        app := { s.app with queue := s.app.queue.eraseIdx index } } : Playback).Recorded :=
      advanced.toRecorded.same rfl rfl rfl
    dsimp only at aligned ⊢
    split
    · exact recorded.skip 0
    · rename_i later
      rw [if_neg later] at aligned
      exact ⟨recorded, aligned⟩

theorem Advanced.loadStep (advanced : s.Advanced) (op : LoadOp) : (loadStep op s).Advanced := by
  cases op with
  | setQueueEntries entries start =>
    have recorded : ({ s with app := { s.app with queue := entries } } : Playback).Recorded :=
      advanced.toRecorded.same rfl rfl rfl
    exact recorded.skip start
  | playIndex idx => exact advanced.toRecorded.skip idx
  | playNext => exact advanced.toRecorded.skip _
  | removeFromQueue index => exact advanced.removeFromQueue index
  | advance task success =>
    obtain ⟨app, plays, moves⟩ := advance_keeps s task success
    exact advanced.same app plays moves

theorem Advanced.deliver (advanced : s.Advanced) (fits : Fits .deliver s) :
    s.deliver.Advanced := by
  unfold Playback.deliver
  split
  · exact advanced
  · rename_i event play rest queued
    have popped : ({ s with events := rest } : Playback).Advanced := advanced.same rfl rfl rfl
    refine popped.handle fun advances => ?_
    exact fits (event, play) (by rw [queued]; rfl) advances

theorem step_advanced (op : PlaybackOp) (s : Playback) (fits : Fits op s) (advanced : s.Advanced) :
    (step op s).Advanced := by
  cases op with
  | load op => exact advanced.loadStep op
  | deliver => exact advanced.deliver fits
  | audioPlays => exact advanced.same rfl rfl rfl
  | audioEnds failed => exact advanced.same rfl rfl rfl
  | videoEnds => exact advanced.same rfl rfl rfl
  | videoFails => exact advanced.same rfl rfl rfl
  | videoCloses => exact advanced.same rfl rfl rfl

theorem idle_advanced (hasAudio hasVideo : Bool) : (idle hasAudio hasVideo).Advanced := by
  refine ⟨⟨?_, ?_, List.nodup_nil, ?_⟩, rfl⟩
  · exact fun move none => absurd none List.not_mem_nil
  · exact fun play none => absurd none List.not_mem_nil
  · exact fun entry none => absurd none List.not_mem_nil

/-- When only events of the current play make the queue advance, each play does so at most once, and
every entry in the history was skipped or came to an end of its own. -/
theorem advanced_by_own_end (hasAudio hasVideo : Bool) (ops : List PlaybackOp)
    (meets : Meets step Fits ops (idle hasAudio hasVideo)) :
    let s := runAll step ops (idle hasAudio hasVideo)
    (∀ move ∈ s.moves, move.cause = .user ∨
        ∃ play, move.cause = .outcome (some play) ∧ move.play = some play) ∧
      s.outcomes.Nodup ∧ ∀ entry ∈ s.app.history, ∃ move ∈ s.moves, move.entry = entry := by
  intro s
  have advanced : s.Advanced := meets.keeps step_advanced (idle_advanced hasAudio hasVideo)
  exact ⟨advanced.own, advanced.once, advanced.history⟩

def money : QueueEntry := .song ⟨"m", "money", none, none, none, some "/money.flac", none, none⟩

def voyager (id : String) : QueueEntry :=
  .video ⟨id, "voyager", none, none, some "/voyager.mkv", none⟩

def through (task : Nat) : List PlaybackOp := List.replicate 3 (.load (.advance task true))

def inTurn : List PlaybackOp :=
  [PlaybackOp.load (.setQueueEntries [money, voyager "v"] 0)] ++ through 0 ++
    [PlaybackOp.audioPlays, PlaybackOp.deliver, PlaybackOp.audioEnds false, PlaybackOp.deliver] ++ through 1 ++ [PlaybackOp.videoEnds, PlaybackOp.deliver]

def unplayable : List PlaybackOp :=
  [PlaybackOp.load (.setQueueEntries [voyager "v", money] 0)] ++ through 0 ++ [PlaybackOp.deliver, PlaybackOp.deliver]

/-- The user goes on to the next video while the end of the first one waits to be handled. -/
def skippedAtEnd : List PlaybackOp :=
  [PlaybackOp.load (.setQueueEntries [voyager "v", voyager "w", money] 0)] ++ through 0 ++
    [PlaybackOp.videoEnds, PlaybackOp.load .playNext, PlaybackOp.deliver]

theorem advanced_by_own_end_in_turn :
    let s := runAll step inTurn (idle true true)
    (∀ move ∈ s.moves, move.cause = .user ∨
        ∃ play, move.cause = .outcome (some play) ∧ move.play = some play) ∧
      s.outcomes.Nodup ∧ ∀ entry ∈ s.app.history, ∃ move ∈ s.moves, move.entry = entry :=
  advanced_by_own_end true true inTurn (by decide)

/-- The failure of the video also takes the song, and the end of the first video the second one. -/
theorem advanced_by_another :
    (runAll step unplayable (idle true false)).moves =
        [⟨voyager "v", some 1, .outcome (some 1)⟩, ⟨money, some 2, .outcome (some 1)⟩] ∧
      ¬(runAll step unplayable (idle true false)).outcomes.Nodup ∧
      (runAll step skippedAtEnd (idle true true)).moves =
        [⟨voyager "v", some 1, .user⟩, ⟨voyager "w", some 2, .outcome (some 1)⟩] := by
  decide

end Playback

end Tomb.Rathole
