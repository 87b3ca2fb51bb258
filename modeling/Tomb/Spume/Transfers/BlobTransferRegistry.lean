import Mathlib.Data.List.Basic
import Mathlib.Logic.Function.Basic
import Tomb.Lib.Runs

/-! The registry of the blobs that are moving: downloads, which their callers register, and uploads,
which polls mirror from the node. Both are kept by the hash of the blob. A poll that fails never
answers, and on a node that cannot cancel a download a pause does nothing. -/
namespace Tomb.Spume.Transfers.BlobTransfers
open Function (update update_self update_of_ne)
open Tomb.Lib

inductive BlobTransferDirection where
  | upload
  | download
  deriving DecidableEq

inductive BlobTransferState where
  | active
  | paused
  deriving DecidableEq

structure BlobTransfer where
  blake3 : String
  direction : BlobTransferDirection
  peerId : Option String
  bytesTransferred : Nat
  bytesTotal : Option Nat
  startedAt : Nat
  state : BlobTransferState

structure OutgoingTransfer where
  (peerId blake3 : String)
  (bytesSent totalSize : Nat)

structure Progress where
  peerId : Option String
  bytesTransferred : Nat
  bytesTotal : Option Nat
  state : BlobTransferState
  deriving DecidableEq

/-- The registry, the numbers of the polls that wait for the node, and the pauses that do. -/
structure Registry where
  states : String → Option BlobTransfer := fun _ => none
  /-- The number of the last poll. -/
  issued : Nat := 0
  polls : List Nat := []
  pauses : List String := []
  /-- The downloads as they were reported. -/
  reported : String → Option Progress := fun _ => none
  /-- What the last poll answered. -/
  latest : List OutgoingTransfer := []

inductive Op where
  | register (blake3 : String) (peerId : Option String) (bytesTotal : Option Nat) (now : Nat)
  | progress (blake3 : String) (bytesTransferred : Nat) (bytesTotal : Option Nat)
  | complete (blake3 : String)
  | pause (blake3 : String)
  /-- The node has cancelled so many downloads for a pause. -/
  | cancelled (pause : Nat) (count : Nat)
  | resume (blake3 : String)
  | poll
  | answer (poll : Nat) (snapshot : List OutgoingTransfer) (now : Nat)

def setProgress (bytesTransferred : Nat) (bytesTotal : Option Nat)
    (existing : BlobTransfer) : BlobTransfer :=
  { existing with bytesTransferred, bytesTotal := bytesTotal <|> existing.bytesTotal,
                  state := .active }

def mirror (now : Nat) (states : String → Option BlobTransfer) (transfer : OutgoingTransfer) :
    String → Option BlobTransfer :=
  update states transfer.blake3 <| some {
    blake3 := transfer.blake3
    direction := .upload
    peerId := some transfer.peerId
    bytesTransferred := transfer.bytesSent
    bytesTotal := some transfer.totalSize
    startedAt := ((states transfer.blake3).map (·.startedAt)).getD now
    state := .active }

def pollUploadTransfers (snapshot : List OutgoingTransfer) (now : Nat)
    (states : String → Option BlobTransfer) : String → Option BlobTransfer := fun blake3 =>
  (snapshot.foldl (mirror now) states blake3).filter fun transfer =>
    transfer.direction ≠ .upload || blake3 ∈ snapshot.map (·.blake3)

namespace Registry

variable (s : Registry)

def setState (blake3 : String) (state : Option BlobTransfer) : Registry :=
  { s with states := update s.states blake3 state }

def change (blake3 : String) (f : BlobTransfer → BlobTransfer) : Registry :=
  match s.states blake3 with
  | some existing => s.setState blake3 (some (f existing))
  | none => s

def registerBlobTransfer (blake3 : String) (direction : BlobTransferDirection)
    (peerId : Option String) (bytesTotal : Option Nat) (now : Nat) : Registry :=
  s.setState blake3 (some ⟨blake3, direction, peerId, 0, bytesTotal, now, .active⟩)

def updateBlobTransferProgress (blake3 : String) (bytesTransferred : Nat)
    (bytesTotal : Option Nat) : Registry :=
  s.change blake3 (setProgress bytesTransferred bytesTotal)

def completeBlobTransfer (blake3 : String) : Registry := s.setState blake3 none

def pauseBlobTransfer (blake3 : String) (cancelledCount : Nat) : Registry :=
  if 0 < cancelledCount then s.change blake3 ({ · with state := .paused }) else s

def resumeBlobTransfer (blake3 : String) : Registry :=
  s.change blake3 ({ · with state := .active })

def report (blake3 : String) (f : Progress → Progress) : Registry :=
  { s with reported := update s.reported blake3 ((s.reported blake3).map f) }

def step : Op → Registry → Registry
  | .register blake3 peerId bytesTotal now, s =>
    { s.registerBlobTransfer blake3 .download peerId bytesTotal now with
      reported := update s.reported blake3 (some ⟨peerId, 0, bytesTotal, .active⟩) }
  | .progress blake3 bytesTransferred bytesTotal, s =>
    (s.updateBlobTransferProgress blake3 bytesTransferred bytesTotal).report blake3 fun known =>
      { known with bytesTransferred, bytesTotal := bytesTotal <|> known.bytesTotal }
  | .complete blake3, s =>
    { s.completeBlobTransfer blake3 with reported := update s.reported blake3 none }
  | .pause blake3, s => { s with pauses := s.pauses ++ [blake3] }
  | .cancelled pause count, s =>
    match s.pauses[pause]? with
    | some blake3 =>
      let left := { s with pauses := s.pauses.eraseIdx pause }.pauseBlobTransfer blake3 count
      if 0 < count then left.report blake3 ({ · with state := .paused }) else left
    | none => s
  | .resume blake3, s => (s.resumeBlobTransfer blake3).report blake3 ({ · with state := .active })
  | .poll, s => { s with issued := s.issued + 1, polls := s.polls ++ [s.issued + 1] }
  | .answer poll snapshot now, s =>
    if poll ∈ s.polls then { s with
      states := pollUploadTransfers snapshot now s.states
      polls := s.polls.filter (· ≠ poll)
      latest := if poll = s.issued then snapshot else s.latest }
    else s

end Registry

def view (direction : BlobTransferDirection) (transfer : Option BlobTransfer) : Option Progress :=
  (transfer.filter (·.direction = direction)).map fun transfer =>
    ⟨transfer.peerId, transfer.bytesTransferred, transfer.bytesTotal, transfer.state⟩

def entryOf (snapshot : List OutgoingTransfer) (blake3 : String) : Option Progress :=
  (snapshot.reverse.find? (·.blake3 = blake3)).map fun transfer =>
    ⟨some transfer.peerId, transfer.bytesSent, some transfer.totalSize, .active⟩

section Views

variable {direction : BlobTransferDirection} {blake3 : String}

theorem view_self {transfer : BlobTransfer} (own : transfer.direction = direction) :
    view direction (some transfer) = some
      ⟨transfer.peerId, transfer.bytesTransferred, transfer.bytesTotal, transfer.state⟩ := by
  unfold view
  rw [Option.filter_some, if_pos (decide_eq_true own)]
  rfl

theorem view_other {transfer : BlobTransfer} (other : transfer.direction ≠ direction) :
    view direction (some transfer) = none := by
  unfold view
  rw [Option.filter_some, if_neg (fun same => other (of_decide_eq_true same))]
  rfl

theorem entryOf_concat (snapshot : List OutgoingTransfer) (transfer : OutgoingTransfer) :
    entryOf (snapshot ++ [transfer]) blake3 =
      if transfer.blake3 = blake3 then
        some ⟨some transfer.peerId, transfer.bytesSent, some transfer.totalSize, .active⟩
      else entryOf snapshot blake3 := by
  unfold entryOf
  rw [List.reverse_append, List.reverse_singleton, List.singleton_append, List.find?_cons]
  by_cases same : transfer.blake3 = blake3
  · rw [decide_eq_true same, if_pos same]
    rfl
  · rw [decide_eq_false same, if_neg same]

theorem mirrored (snapshot : List OutgoingTransfer) (now : Nat)
    (states : String → Option BlobTransfer) (blake3 : String) :
    (blake3 ∈ snapshot.map (·.blake3) → ∃ transfer, transfer.direction = .upload ∧
      snapshot.foldl (mirror now) states blake3 = some transfer ∧
      view .upload (some transfer) = entryOf snapshot blake3) ∧
    (blake3 ∉ snapshot.map (·.blake3) → entryOf snapshot blake3 = none ∧
      snapshot.foldl (mirror now) states blake3 = states blake3) := by
  induction snapshot using List.reverseRecOn with
  | nil => exact ⟨fun member => (nomatch member), fun _ => ⟨rfl, rfl⟩⟩
  | append_singleton snapshot transfer ih =>
    rw [List.foldl_concat, entryOf_concat, List.map_append, List.map_singleton, List.mem_append,
      List.mem_singleton, mirror]
    by_cases same : transfer.blake3 = blake3
    · subst same
      rw [if_pos rfl, update_self]
      exact ⟨fun _ => ⟨_, rfl, rfl, view_self rfl⟩, fun absent => absurd (.inr rfl) absent⟩
    · rw [if_neg same, update_of_ne (Ne.symm same), or_iff_left (Ne.symm same)]
      exact ih

theorem poll_upload (snapshot : List OutgoingTransfer) (now : Nat)
    (states : String → Option BlobTransfer) (blake3 : String) :
    view .upload (pollUploadTransfers snapshot now states blake3) = entryOf snapshot blake3 := by
  unfold pollUploadTransfers
  by_cases named : blake3 ∈ snapshot.map (·.blake3)
  · obtain ⟨transfer, _, set, same⟩ := (mirrored snapshot now states blake3).1 named
    rw [set, Option.filter_some, if_pos (by simp [named]), same]
  · obtain ⟨none, set⟩ := (mirrored snapshot now states blake3).2 named
    rw [none, set]
    cases states blake3 with
    | none => rfl
    | some transfer =>
      by_cases upload : transfer.direction = .upload
      · rw [Option.filter_some, if_neg (by simp [upload, named])]
        rfl
      · rw [Option.filter_some, if_pos (by simp [upload]), view_other upload]

theorem poll_download {snapshot : List OutgoingTransfer} {states : String → Option BlobTransfer}
    (apart : ∀ transfer ∈ snapshot, view .download (states transfer.blake3) = none) (now : Nat)
    (blake3 : String) : view .download (pollUploadTransfers snapshot now states blake3) =
      view .download (states blake3) := by
  unfold pollUploadTransfers
  by_cases named : blake3 ∈ snapshot.map (·.blake3)
  · obtain ⟨transfer, upload, set, _⟩ := (mirrored snapshot now states blake3).1 named
    obtain ⟨told, member, rfl⟩ := List.mem_map.mp named
    have other : transfer.direction ≠ .download := by
      rw [upload]
      exact BlobTransferDirection.noConfusion
    rw [set, Option.filter_some, if_pos (by simp [named]), view_other other]
    exact (apart told member).symm
  · rw [((mirrored snapshot now states blake3).2 named).2]
    cases states blake3 with
    | none => rfl
    | some transfer =>
      by_cases upload : transfer.direction = .upload
      · have other : transfer.direction ≠ .download := by
          rw [upload]
          exact BlobTransferDirection.noConfusion
        rw [Option.filter_some, if_neg (by simp [upload, named]), view_other other]
        rfl
      · rw [Option.filter_some, if_pos (by simp [upload])]

end Views

namespace Registry

/-- The blob is an upload of the last poll, which no poll that waits will tell anew. -/
def Uploading (s : Registry) (blake3 : String) : Prop :=
  s.issued ∉ s.polls ∧ view .upload (s.states blake3) ≠ none

instance (s : Registry) (blake3 : String) : Decidable (s.Uploading blake3) :=
  inferInstanceAs (Decidable (_ ∧ _))

/-- No blob is moved in both directions, a paused download does not progress, and no poll answers
behind a later one. -/
def Fits : Op → Registry → Prop
  | .register blake3 _ _ _, s | .complete blake3, s => ¬ s.Uploading blake3
  | .progress blake3 _ _, s => ¬ s.Uploading blake3 ∧
      (view .download (s.states blake3)).map (·.state) ≠ some .paused
  | .cancelled pause count, s =>
    0 < count → ∀ blake3 ∈ s.pauses[pause]?, ¬ s.Uploading blake3
  | .answer poll snapshot _, s => poll ∈ s.polls →
      (∀ transfer ∈ snapshot, view .download (s.states transfer.blake3) = none) ∧
        (poll = s.issued ∨ s.issued ∈ s.polls)
  | .pause _, _ | .resume _, _ | .poll, _ => True

instance : (op : Op) → (s : Registry) → Decidable (Fits op s)
  | .register blake3 _ _ _, s | .complete blake3, s =>
    inferInstanceAs (Decidable (¬ s.Uploading blake3))
  | .progress blake3 _ _, s => inferInstanceAs (Decidable (¬ s.Uploading blake3 ∧ _ ≠ _))
  | .cancelled pause count, s => inferInstanceAs
      (Decidable (0 < count → ∀ blake3 ∈ s.pauses[pause]?, ¬ s.Uploading blake3))
  | .answer poll snapshot _, s => inferInstanceAs (Decidable (poll ∈ s.polls →
      (∀ transfer ∈ snapshot, view .download (s.states transfer.blake3) = none) ∧ _))
  | .pause _, _ | .resume _, _ | .poll, _ => .isTrue trivial

/-- The downloads are as they were reported, and when the last poll has answered the uploads are as
it told. -/
structure Tracks (s : Registry) : Prop where
  downloads : ∀ blake3, view .download (s.states blake3) = s.reported blake3
  uploads : s.issued ∉ s.polls → ∀ blake3, view .upload (s.states blake3) = entryOf s.latest blake3

section Steps

variable {s : Registry} {blake3 : String}

theorem change_eq (s : Registry) (blake3 : String) (f : BlobTransfer → BlobTransfer) :
    s.change blake3 f = s.setState blake3 ((s.states blake3).map f) := by
  unfold change
  cases existing : s.states blake3 with
  | none =>
    show s = { s with states := update s.states blake3 none }
    rw [← existing, Function.update_eq_self]
  | some transfer => rfl

/-- An entry is set as it was reported, and it is as much an upload as the one before. -/
theorem Tracks.set (tracks : Tracks s) {entry : Option BlobTransfer} {reported : Option Progress}
    (download : view .download entry = reported)
    (upload : s.issued ∉ s.polls → view .upload entry = view .upload (s.states blake3)) :
    Tracks { s with
      states := update s.states blake3 entry
      reported := update s.reported blake3 reported } where
  downloads := by
    intro other
    show view .download (update s.states blake3 entry other) =
      update s.reported blake3 reported other
    by_cases same : other = blake3
    · rw [same, update_self, update_self]
      exact download
    · rw [update_of_ne same, update_of_ne same]
      exact tracks.downloads other
  uploads := by
    intro answered other
    rw [← tracks.uploads answered other]
    show view .upload (update s.states blake3 entry other) = _
    by_cases same : other = blake3
    · rw [same, update_self]
      exact upload answered
    · rw [update_of_ne same]

theorem upload_of_not_uploading (fits : ¬ s.Uploading blake3) (answered : s.issued ∉ s.polls) :
    view .upload (s.states blake3) = none :=
  not_not.mp fun upload => fits ⟨answered, upload⟩

/-- A change of an entry and of its report keeps the registry if it reads the same of a download and
leaves an upload alone. -/
theorem Tracks.change (tracks : Tracks s) (f : BlobTransfer → BlobTransfer)
    (g : Progress → Progress)
    (keeps : ∀ transfer, (f transfer).direction = transfer.direction)
    (reads : ∀ transfer, s.states blake3 = some transfer → transfer.direction = .download →
      view .download (some (f transfer)) = (view .download (some transfer)).map g)
    (alone : s.issued ∉ s.polls → ∀ transfer, s.states blake3 = some transfer →
      transfer.direction = .upload →
      view .upload (some (f transfer)) = view .upload (some transfer)) :
    Tracks ((s.change blake3 f).report blake3 g) := by
  rw [change_eq]
  apply tracks.set
  · show view .download ((s.states blake3).map f) = (s.reported blake3).map g
    rw [← tracks.downloads blake3]
    cases existing : s.states blake3 with
    | none => rfl
    | some transfer =>
      cases direction : transfer.direction with
      | download => exact reads transfer existing direction
      | upload =>
        have other : transfer.direction ≠ .download := by
          rw [direction]
          exact BlobTransferDirection.noConfusion
        rw [Option.map_some, view_other other, view_other ((keeps transfer).symm ▸ other)]
        rfl
  · intro answered
    cases existing : s.states blake3 with
    | none => rfl
    | some transfer =>
      cases direction : transfer.direction with
      | upload => exact alone answered transfer existing direction
      | download =>
        have other : transfer.direction ≠ .upload := by
          rw [direction]
          exact BlobTransferDirection.noConfusion
        rw [Option.map_some, view_other other, view_other ((keeps transfer).symm ▸ other)]

theorem Tracks.register (tracks : Tracks s) (fits : ¬ s.Uploading blake3) (peerId : Option String)
    (bytesTotal : Option Nat) (now : Nat) :
    Tracks (s.step (.register blake3 peerId bytesTotal now)) := by
  apply tracks.set
  · exact view_self rfl
  · intro answered
    rw [upload_of_not_uploading fits answered]
    exact view_other BlobTransferDirection.noConfusion

theorem Tracks.complete (tracks : Tracks s) (fits : ¬ s.Uploading blake3) :
    Tracks (s.step (.complete blake3)) := by
  apply tracks.set
  · rfl
  · intro answered
    rw [upload_of_not_uploading fits answered]
    rfl

theorem not_upload (fits : ¬ s.Uploading blake3) (answered : s.issued ∉ s.polls)
    {transfer : BlobTransfer} (existing : s.states blake3 = some transfer) {goal : Prop}
    (upload : transfer.direction = .upload) : goal := by
  have none := upload_of_not_uploading fits answered
  rw [existing, view_self upload] at none
  cases none

theorem Tracks.progress (tracks : Tracks s) (fits : ¬ s.Uploading blake3)
    (active : (view .download (s.states blake3)).map (·.state) ≠ some .paused)
    (bytesTransferred : Nat) (bytesTotal : Option Nat) :
    Tracks (s.step (.progress blake3 bytesTransferred bytesTotal)) := by
  apply tracks.change
  · exact fun _ => rfl
  · intro transfer existing download
    rw [existing, view_self download] at active
    have going : transfer.state = .active := by
      cases state : transfer.state with
      | active => rfl
      | paused => exact absurd (congrArg some state) active
    rw [view_self download, view_self (by exact download)]
    simp only [Option.map_some, setProgress, going]
  · intro answered transfer existing
    exact not_upload fits answered existing

theorem Tracks.paused (tracks : Tracks s) (fits : ¬ s.Uploading blake3) :
    Tracks ((s.change blake3 ({ · with state := .paused })).report blake3
      ({ · with state := .paused })) := by
  apply tracks.change
  · exact fun _ => rfl
  · intro transfer existing download
    rw [view_self download, view_self (by exact download)]
    rfl
  · intro answered transfer existing
    exact not_upload fits answered existing

theorem Tracks.resume (tracks : Tracks s) : Tracks (s.step (.resume blake3)) := by
  apply tracks.change
  · exact fun _ => rfl
  · intro transfer existing download
    rw [view_self download, view_self (by exact download)]
    rfl
  · intro answered transfer existing upload
    have told := tracks.uploads answered blake3
    rw [existing, view_self upload] at told
    have active : transfer.state = .active := by
      unfold entryOf at told
      obtain ⟨outgoing, _, same⟩ := Option.map_eq_some_iff.mp told.symm
      exact (congrArg Progress.state same).symm
    rw [view_self upload, view_self (by exact upload), active]

theorem Tracks.answer (tracks : Tracks s) {poll : Nat} {snapshot : List OutgoingTransfer}
    (apart : ∀ transfer ∈ snapshot, view .download (s.states transfer.blake3) = none)
    (latest : poll = s.issued ∨ s.issued ∈ s.polls) (now : Nat) : Tracks { s with
      states := pollUploadTransfers snapshot now s.states
      polls := s.polls.filter (· ≠ poll)
      latest := if poll = s.issued then snapshot else s.latest } where
  downloads := by
    intro blake3
    rw [← tracks.downloads blake3]
    exact poll_download apart now blake3
  uploads := by
    intro answered blake3
    have last : poll = s.issued := by
      rcases latest with last | waits
      · exact last
      · refine not_not.mp fun differs => answered ?_
        exact List.mem_filter.mpr ⟨waits, decide_eq_true (Ne.symm differs)⟩
    show view .upload (pollUploadTransfers snapshot now s.states blake3) =
      entryOf (if poll = s.issued then snapshot else s.latest) blake3
    rw [if_pos last]
    exact poll_upload snapshot now s.states blake3

theorem fresh_tracks : Tracks {} := ⟨fun _ => rfl, fun _ _ => rfl⟩

theorem step_tracks (op : Op) (s : Registry) (fits : Fits op s) (tracks : Tracks s) :
    Tracks (s.step op) := by
  cases op with
  | register blake3 peerId bytesTotal now => exact tracks.register fits peerId bytesTotal now
  | progress blake3 bytesTransferred bytesTotal =>
    exact tracks.progress fits.1 fits.2 bytesTransferred bytesTotal
  | complete blake3 => exact tracks.complete fits
  | pause blake3 => exact ⟨tracks.downloads, tracks.uploads⟩
  | cancelled pause count =>
    show Tracks (match s.pauses[pause]? with
      | some blake3 => _
      | none => s)
    cases found : s.pauses[pause]? with
    | none => exact tracks
    | some blake3 =>
      have left : Tracks { s with pauses := s.pauses.eraseIdx pause } :=
        ⟨tracks.downloads, tracks.uploads⟩
      dsimp only
      unfold pauseBlobTransfer
      split
      · rename_i some
        have alone : ¬ s.Uploading blake3 := fits some blake3 (by rw [found]; rfl)
        exact left.paused alone
      · exact left
  | resume blake3 => exact tracks.resume
  | poll =>
    refine ⟨tracks.downloads, ?_⟩
    intro answered
    exact absurd (List.mem_append_right _ (.head _)) answered
  | answer poll snapshot now =>
    show Tracks (if poll ∈ s.polls then _ else s)
    split
    · rename_i waits
      obtain ⟨apart, latest⟩ := fits waits
      exact tracks.answer apart latest now
    · exact tracks

/-- In every run whose steps fit, the registry has each download that is registered and not completed
as it was last reported, and no other, and when the last poll has answered the uploads are those that
it told. -/
theorem registry_tracks (ops : List Op) (fits : Meets step Fits ops {}) :
    Tracks (runAll step ops {}) :=
  fits.keeps step_tracks fresh_tracks

theorem registry_tracks_both : Tracks (runAll step
    [.register "a" none (some 9) 0, .poll, .progress "a" 4 none, .pause "a",
      .answer 1 [⟨"peer", "b", 1, 2⟩] 5, .cancelled 0 1, .poll, .complete "a", .answer 2 [] 7] {}) :=
  registry_tracks _ (by decide)

/-- A poll that names a download makes an upload of it, a poll that answers late brings back what the
later one dropped, progress that comes late ends a pause, and so does a completion to an upload of
the same blob. -/
theorem registry_loses_track :
    ¬ Tracks (runAll step [.register "a" none (some 9) 0, .poll,
      .answer 1 [⟨"peer", "a", 1, 9⟩] 1] {}) ∧
    ¬ Tracks (runAll step [.poll, .poll, .answer 2 [] 1, .answer 1 [⟨"peer", "b", 1, 2⟩] 2] {}) ∧
    ¬ Tracks (runAll step [.register "a" none none 0, .pause "a", .cancelled 0 1,
      .progress "a" 4 none] {}) ∧
    ¬ Tracks (runAll step [.poll, .answer 1 [⟨"peer", "a", 1, 2⟩] 2, .complete "a"] {}) := by
  refine ⟨?_, ?_, ?_, ?_⟩
  · intro tracks
    have same := tracks.downloads "a"
    revert same
    decide
  · intro tracks
    have same := tracks.uploads (by decide) "b"
    revert same
    decide
  · intro tracks
    have same := tracks.downloads "a"
    revert same
    decide
  · intro tracks
    have same := tracks.uploads (by decide) "a"
    revert same
    decide

end Steps

end Registry

end Tomb.Spume.Transfers.BlobTransfers
