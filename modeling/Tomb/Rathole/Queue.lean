import Mathlib.Data.List.Basic

/-! Rathole's unified play queue: what a queue entry reports on the wire, and the queue manager. The
manager does not look into the entries; `ε` is their type. -/
namespace Tomb.Rathole

inductive MediaKind where
  | audio
  | video
  deriving DecidableEq

structure MediaRef where
  (sourcePeerAddr blake3Hash : String)
  sizeBytes : Option Nat := none
  durationMs : Option Nat := none
  mimeType : Option String := none
  kind : Option MediaKind := none
  title : Option String := none
  artist : Option String := none
  artworkThumbUrl : Option String := none
  artworkFullUrl : Option String := none
  deriving DecidableEq

structure SongRow where
  (id title : String)
  artist : Option String
  durationMs : Option Nat
  (mediaBlobId localPath artUrl sourceBlake3 : Option String)
  deriving DecidableEq

structure QueuedVideoRow where
  (id title : String)
  durationMs : Option Nat
  (mediaBlobId localPath sourceBlake3 : Option String)
  deriving DecidableEq

inductive QueueEntry where
  | song (row : SongRow)
  | video (row : QueuedVideoRow)
  deriving DecidableEq

/-- The wire shape of an entry, with its content hash if that is known and else an id. -/
def queueEntryToMediaRef : QueueEntry → MediaRef
  | .song song => {
      sourcePeerAddr := ""
      blake3Hash := (song.sourceBlake3.or song.mediaBlobId).getD song.id
      durationMs := song.durationMs
      kind := some .audio
      title := some song.title
      artist := song.artist }
  | .video video => {
      sourcePeerAddr := ""
      blake3Hash := (video.sourceBlake3.or video.mediaBlobId).getD video.id
      durationMs := video.durationMs
      kind := some .video
      title := some video.title }

structure ImportedMedia where
  (mediaBlobId localPath entityId : String)

def mediaRefToQueueEntry (media : MediaRef) (imported : ImportedMedia) : QueueEntry :=
  let title := media.title.getD "untitled"
  match media.kind.getD .audio with
  | .audio => .song {
      id := imported.entityId
      title
      artist := media.artist
      durationMs := media.durationMs
      mediaBlobId := some imported.mediaBlobId
      localPath := some imported.localPath
      artUrl := media.artworkFullUrl.or media.artworkThumbUrl
      sourceBlake3 := some media.blake3Hash }
  | .video => .video {
      id := imported.entityId
      title
      durationMs := media.durationMs
      mediaBlobId := some imported.mediaBlobId
      localPath := some imported.localPath
      sourceBlake3 := some media.blake3Hash }

@[simp] theorem mediaRefToQueueEntry_hash (media : MediaRef) (imported : ImportedMedia) :
    (queueEntryToMediaRef (mediaRefToQueueEntry media imported)).blake3Hash =
      media.blake3Hash := by
  unfold mediaRefToQueueEntry
  cases media.kind.getD .audio <;> rfl

structure UnresolvedItemRef where
  (blake3Hash sourcePeerAddr : String)

/-- The state of the ui loop that the queue and its remote controllers share. `radio` is what a radio
session reports in the queue's place. -/
structure App (ε : Type) where
  queue : List ε
  current : Option Nat
  history : List ε
  radio : Option MediaRef
  pendingPreviews : List MediaRef
  unresolvedItems : List UnresolvedItemRef

namespace App

variable {ε : Type}

def historyCap : Nat := 50

def pushHistory (history played : List ε) : List ε :=
  if played.isEmpty then history else (played.reverse ++ history).take historyCap

/-- Load the entry at `idx`, which drops the entries before it into the history. Off the end of the
queue everything is dropped. -/
@[grind =] def playIndex (app : App ε) (idx : Nat) : App ε :=
  if app.queue.length ≤ idx then
    { app with
      queue := []
      history := pushHistory app.history app.queue
      current := none
      radio := none }
  else
    { app with
      queue := app.queue.drop idx
      history := pushHistory app.history (app.queue.take idx)
      current := some 0
      radio := none }

def setQueueEntries (app : App ε) (entries : List ε) (start : Nat) : App ε :=
  { app with queue := entries }.playIndex start

def appendQueueEntries (app : App ε) (entries : List ε) : App ε :=
  if entries.isEmpty then app
  else
    let start := app.queue.length
    let appended := { app with queue := app.queue ++ entries }
    if app.current.isNone then appended.playIndex start else appended

def removeFromQueue (app : App ε) (index : Nat) : App ε :=
  if app.queue.length ≤ index then app
  else
    let removed := { app with queue := app.queue.eraseIdx index }
    if index = 0 then removed.playIndex 0 else removed

def reorderQueue (app : App ε) (fromIndex toIndex : Nat) : App ε :=
  if fromIndex = 0 ∨ toIndex = 0 ∨ fromIndex = toIndex then app
  else if app.queue.length ≤ fromIndex ∨ app.queue.length ≤ toIndex then app
  else
    match app.queue[fromIndex]? with
    | none => app
    | some entry =>
      { app with queue := (app.queue.eraseIdx fromIndex).insertIdx toIndex entry }

/-- The entry that plays is the first of the queue, which holds no entry when nothing plays. -/
@[grind =] def Aligned (app : App ε) : Prop := app.current = if app.queue = [] then none else some 0

theorem aligned_playIndex (app : App ε) (idx : Nat) : (app.playIndex idx).Aligned := by
  unfold playIndex Aligned
  split
  · rfl
  · rename_i inside
    have remains : app.queue.drop idx ≠ [] := by
      intro none
      have := List.drop_eq_nil_iff.mp none
      omega
    simp [remains]

theorem aligned_appendQueueEntries {app : App ε} (aligned : app.Aligned) (entries : List ε) :
    (app.appendQueueEntries entries).Aligned := by
  unfold appendQueueEntries
  split
  · exact aligned
  · rename_i some
    simp only
    split
    · exact aligned_playIndex _ _
    · rename_i playing
      have filled : app.queue ≠ [] := by
        intro none
        rw [Aligned, if_pos none] at aligned
        simp [aligned] at playing
      rw [Aligned, if_neg filled] at aligned
      simp [Aligned, aligned, filled]

theorem aligned_removeFromQueue {app : App ε} (aligned : app.Aligned) (index : Nat) :
    (app.removeFromQueue index).Aligned := by
  unfold removeFromQueue
  split
  · exact aligned
  · rename_i inside
    simp only
    split
    · exact aligned_playIndex _ _
    · rename_i later
      have filled : app.queue ≠ [] := by
        intro none
        simp [none] at inside
      have remains : app.queue.eraseIdx index ≠ [] := by
        intro none
        have length := congrArg List.length none
        rw [List.length_eraseIdx_of_lt (by omega), List.length_nil] at length
        omega
      rw [Aligned, if_neg filled] at aligned
      simp [Aligned, aligned, remains]

theorem queue_appendQueueEntries {app : App ε} (aligned : app.Aligned) (entries : List ε) :
    (app.appendQueueEntries entries).queue = app.queue ++ entries := by
  unfold appendQueueEntries
  split
  · simp_all
  · rename_i some
    simp only
    split
    · rename_i idle
      have empty : app.queue = [] := by
        by_contra filled
        rw [Aligned, if_neg filled] at aligned
        simp [aligned] at idle
      have more : entries ≠ [] := by simpa using some
      simp [playIndex, empty, more]
    · rfl

theorem queue_removeFromQueue (app : App ε) (index : Nat) :
    (app.removeFromQueue index).queue = app.queue.eraseIdx index := by
  unfold removeFromQueue
  split
  · rename_i outside
    exact (List.eraseIdx_of_length_le outside).symm
  · simp only
    split
    · simp only [playIndex]
      split
      · rename_i none
        exact (List.length_eq_zero_iff.mp (Nat.le_zero.mp none)).symm
      · rfl
    · rfl

theorem queue_setQueueEntries (app : App ε) (entries : List ε) :
    (app.setQueueEntries entries 0).queue = entries := by
  unfold setQueueEntries playIndex
  split
  · rename_i none
    simpa using (List.length_eq_zero_iff.mp (Nat.le_zero.mp none)).symm
  · rfl

end App

end Tomb.Rathole
