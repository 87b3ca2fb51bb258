import Mathlib.Data.List.Basic
import Tomb.Lib.Runs

/-! The purge of what has left the queue, next to later writes of the queue. A write waits for the
database before and after it assigns the queue; a purge waits after each blob that it evicts. What
cancels loads and waiting downloads goes by an item's own key, not by a remote's blob, and is left
out. -/
namespace Tomb.Spume.Queue.Departures
open Tomb.Lib

inductive SourceType where
  | «local» | downloaded | synced | remote
  deriving DecidableEq

structure ImageMetadata where
  (remoteBlobId remoteServerId : Option String)

structure Song where
  (id sha256 : String)
  sourceType : SourceType
  (remoteServerId mediaBlobId : Option String)
  (images albumImages artistImages : List ImageMetadata)

structure QueuedVideo where
  id : String
  sourceType : SourceType
  (remoteServerId mediaBlobId : Option String)
  /-- The blob ids of its images. -/
  images : List (Option String)
  posterBlobId : Option String

inductive MediaItem where
  | song (song : Song)
  | video (video : QueuedVideo)

def songIdentityKey (song : Song) : String := if song.sha256 = "" then song.id else song.sha256

def mediaItemKey : MediaItem → String
  | .song song => songIdentityKey song
  | .video video => video.id

structure Ref where
  (remoteId blobId : String)
  deriving DecidableEq

def Ref.key (ref : Ref) : String := ref.remoteId ++ "/" ++ ref.blobId

def nonempty (text : Option String) : Option String := text.filter (· ≠ "")

def cacheKeysFor : MediaItem → List Ref
  | .song song =>
    if song.sourceType ≠ .remote then []
    else match nonempty song.remoteServerId with
      | none => []
      | some remoteId =>
        ((nonempty song.mediaBlobId).toList ++ (nonempty song.sha256).toList).map (⟨remoteId, ·⟩)
  | .video video =>
    if video.sourceType ≠ .remote then []
    else match nonempty video.remoteServerId, nonempty video.mediaBlobId with
      | some remoteId, some blobId => [⟨remoteId, blobId⟩]
      | _, _ => []

def imageRef (image : ImageMetadata) : Option Ref :=
  match nonempty image.remoteBlobId, nonempty image.remoteServerId with
  | some blobId, some remoteId => some ⟨remoteId, blobId⟩
  | _, _ => none

def imageRefsFor : MediaItem → List Ref
  | .song song => (song.images ++ song.albumImages ++ song.artistImages).filterMap imageRef
  | .video video =>
    match nonempty video.remoteServerId with
    | none => []
    | some remoteId =>
      (video.images.filterMap nonempty ++ (nonempty video.posterBlobId).toList).map (⟨remoteId, ·⟩)

def departed (surviving : List String) : List String → List MediaItem → List MediaItem
  | _, [] => []
  | seen, item :: rest =>
    let key := mediaItemKey item
    if key ∈ surviving ∨ key ∈ seen then departed surviving seen rest
    else item :: departed surviving (key :: seen) rest

def diffQueueDepartures (prev next : List MediaItem) : List MediaItem :=
  departed (next.map mediaItemKey) [] prev

inductive Call where
  | cancelP2PDownload
  | evictCachedBlob
  | evictP2PBlob
  deriving DecidableEq

structure Turn where
  calls : List Call
  ref : Ref

def keyTurns (ref : Ref) : List Turn :=
  [⟨[.cancelP2PDownload, .evictCachedBlob], ref⟩, ⟨[.evictP2PBlob], ref⟩]

def imageTurns (ref : Ref) : List Turn := [⟨[.evictCachedBlob], ref⟩, ⟨[.evictP2PBlob], ref⟩]

def purgedImages : List String → List Ref → List Ref
  | _, [] => []
  | skipped, ref :: rest =>
    if ref.key ∈ skipped then purgedImages skipped rest
    else ref :: purgedImages (ref.key :: skipped) rest

def purgeDepartedMedia (items remaining : List MediaItem) : List Turn :=
  let stillReferenced := (remaining.flatMap imageRefsFor).map Ref.key
  (items.flatMap cacheKeysFor).flatMap keyTurns ++
    (purgedImages stillReferenced (items.flatMap imageRefsFor)).flatMap imageTurns

def uses (queue : List MediaItem) (ref : Ref) : Bool :=
  queue.any fun item => ref ∈ cacheKeysFor item || ref ∈ imageRefsFor item

structure Issue where
  call : Call
  ref : Ref
  queued : Bool
  deriving DecidableEq

inductive Write where
  | begun (previous items : List MediaItem)
  | assigned (previous items : List MediaItem)
  | done

structure App where
  queue : List MediaItem
  writes : List Write
  purges : List (List Turn)
  issued : List Issue

inductive Op where
  | setQueue (items : List MediaItem)
  | assign (write : Nat)
  | notify (write : Nat)
  | resume (purge : Nat)

namespace App

def fresh (queue : List MediaItem) : App := ⟨queue, [], [], []⟩

variable (s : App)

def issue (turn : Turn) : App :=
  { s with issued := s.issued ++ turn.calls.map (⟨·, turn.ref, uses s.queue turn.ref⟩) }

def startPurge : List Turn → App
  | [] => s
  | turn :: rest => { s.issue turn with purges := s.purges ++ [rest] }

def notifyQueueDepartures (previous items : List MediaItem) : App :=
  match diffQueueDepartures previous items with
  | [] => s
  | item :: more => s.startPurge (purgeDepartedMedia (item :: more) items)

def step : Op → App → App
  | .setQueue items, s => { s with writes := s.writes ++ [.begun s.queue items] }
  | .assign i, s =>
    match s.writes[i]? with
    | some (.begun previous items) =>
      { s with queue := items, writes := s.writes.set i (.assigned previous items) }
    | _ => s
  | .notify i, s =>
    match s.writes[i]? with
    | some (.assigned previous items) =>
      { s with writes := s.writes.set i .done }.notifyQueueDepartures previous items
    | _ => s
  | .resume j, s =>
    match s.purges[j]? with
    | some (turn :: rest) => { s with purges := s.purges.set j rest }.issue turn
    | _ => s

def Safe : Prop := ∀ issue ∈ s.issued, issue.queued = false

/-- A queue that is assigned uses nothing that a purge has yet to evict, and when departures are
notified the queue uses nothing that is to be purged for them. -/
def fits (s : App) : Op → Bool
  | .assign i =>
    match s.writes[i]? with
    | some (.begun _ items) => s.purges.all (·.all fun turn => !uses items turn.ref)
    | _ => true
  | .notify i =>
    match s.writes[i]? with
    | some (.assigned previous items) =>
      (purgeDepartedMedia (diffQueueDepartures previous items) items).all
        fun turn => !uses s.queue turn.ref
    | _ => true
  | _ => true

variable {s}

structure Invariant (s : App) : Prop where
  safe : s.Safe
  ahead : ∀ purge ∈ s.purges, ∀ turn ∈ purge, uses s.queue turn.ref = false

theorem Safe.issue (safe : s.Safe) {turn : Turn} (free : uses s.queue turn.ref = false) :
    (s.issue turn).Safe := by
  intro issue listed
  rcases List.mem_append.mp listed with before | now
  · exact safe issue before
  · obtain ⟨call, -, rfl⟩ := List.mem_map.mp now
    exact free

theorem Invariant.startPurge (inv : s.Invariant) {turns : List Turn}
    (free : ∀ turn ∈ turns, uses s.queue turn.ref = false) : (s.startPurge turns).Invariant := by
  cases turns with
  | nil => exact inv
  | cons turn rest =>
    obtain ⟨now, later⟩ := List.forall_mem_cons.mp free
    refine ⟨inv.safe.issue now, fun purge listed => ?_⟩
    rcases List.mem_append.mp listed with before | own
    · exact inv.ahead purge before
    · obtain rfl := List.mem_singleton.mp own
      exact later

theorem Invariant.step (inv : s.Invariant) {op : Op} (fits : s.fits op = true) :
    (step op s).Invariant := by
  cases op with
  | setQueue items => exact ⟨inv.safe, inv.ahead⟩
  | assign i =>
    simp only [App.step, App.fits] at fits ⊢
    split
    · rename_i previous items found
      rw [found] at fits
      refine ⟨inv.safe, fun purge listed turn member => ?_⟩
      have free := List.all_eq_true.mp (List.all_eq_true.mp fits purge listed) turn member
      exact (Bool.not_eq_true' _).mp free
    · exact inv
  | notify i =>
    simp only [App.step, App.fits] at fits ⊢
    split
    · rename_i previous items found
      rw [found] at fits
      have noted : Invariant { s with writes := s.writes.set i .done } := ⟨inv.safe, inv.ahead⟩
      unfold notifyQueueDepartures
      split
      · exact noted
      · rename_i item more gone
        dsimp only at fits
        rw [gone] at fits
        refine noted.startPurge fun turn member => ?_
        exact (Bool.not_eq_true' _).mp (List.all_eq_true.mp fits turn member)
    · exact inv
  | resume j =>
    simp only [App.step]
    split
    · rename_i turn rest found
      have all := inv.ahead _ (List.mem_of_getElem? found)
      obtain ⟨now, later⟩ := List.forall_mem_cons.mp all
      refine ⟨Safe.issue inv.safe now, fun purge listed => ?_⟩
      rcases List.mem_or_eq_of_mem_set listed with before | rfl
      · exact inv.ahead purge before
      · exact later
    · exact inv

/-- In every run whose steps fit, no call is for a blob that the queue uses at that time. -/
theorem safe_of_run {queue : List MediaItem} {ops taken : List Op}
    (fits : Meets step (fun op s => s.fits op = true) ops (fresh queue)) (initial : taken <+: ops) :
    (runAll step taken (fresh queue)).Safe := by
  have start : (fresh queue).Invariant := ⟨nofun, nofun⟩
  have keeps : ∀ op s, s.fits op = true → s.Invariant → (step op s).Invariant :=
    fun _ _ fits inv => inv.step fits
  exact ((fits.of_prefix initial).keeps keeps start).safe

def remoteSong : MediaItem :=
  .song ⟨"song", "5e1f", .remote, some "r1", some "blob", [⟨some "art", some "r1"⟩], [], []⟩

def clearing : List Op := [.setQueue [], .assign 0, .notify 0]

/-- The song is queued again after its purge. -/
theorem queued_after_the_purge :
    (runAll step (clearing ++ [.setQueue [remoteSong], .resume 0, .resume 0, .resume 0, .resume 0,
      .resume 0, .assign 1]) (fresh [remoteSong])).Safe :=
  safe_of_run (by decide) List.prefix_rfl

/-- The song is queued again while its purge waits. -/
theorem queued_amid_the_purge :
    ¬(runAll step (clearing ++ [.setQueue [remoteSong], .assign 1, .resume 0])
      (fresh [remoteSong])).Safe := by
  intro safe
  exact absurd (safe ⟨.evictP2PBlob, ⟨"r1", "blob"⟩, true⟩ (by decide)) (by decide)

end App

end Tomb.Spume.Queue.Departures
