import Mathlib.Data.List.Basic
import Mathlib.Logic.Function.Basic
import Tomb.Lib.Runs

/-! The pause and the resume of single items of a transfer queue. A pause asks the node to cancel the
downloads of the item's blob, which makes the send of the item settle, and writes its status when the
node has answered; the send writes a status of its own when it settles. Labels and the results of
sending are left out, and the workers are only seen as they start the items. -/
namespace Tomb.Spume.Transfers.ItemPause
open Function (update update_self update_of_ne)
open Tomb.Lib

inductive TransferQueueItemStatus where
  | pending
  | active
  | paused
  | completed
  | failed
  | timeout
  deriving DecidableEq

structure TransferQueueItem where
  id : String
  status : TransferQueueItemStatus := .pending
  error : Option String := none
  progress : Option Rat := none
  blobTransferBlake3 : Option String := none

/-- How `sendOne` settles. An error that is the empty string counts as none. -/
inductive Sent where
  | returned (error : Option String)
  | throws (message : String)

def Sent.failure : Sent → Option String
  | .returned error => error.filter (· ≠ "")
  | .throws message => some message

/-- A call of `pauseTransferQueueItem` that waits: what the node has answered, and whether the item had
finished by then. -/
structure Pause where
  (itemId blake3 : String)
  cancelled : Option Bool := none
  early : Bool := false

structure Queue where
  items : List TransferQueueItem
  nextIndex : Nat := 0
  /-- The sends that have not settled. -/
  sending : List Nat := []
  pauses : List Pause := []
  /-- A pause has cancelled the send of the item. -/
  cut : String → Bool := fun _ => false
  /-- The send of the item has succeeded, or has failed and was not cut. -/
  finished : String → Bool := fun _ => false
  /-- A pause of the item has returned true, which took effect before the send succeeded, and no resume
  has followed. -/
  held : String → Bool := fun _ => false

inductive Op where
  /-- A worker starts the next item. -/
  | start
  | reportBlake3 (index : Nat) (blake3 : String)
  | reportProgress (index : Nat) (progress : Rat)
  | reportTransferQueueItemProgress (itemId : String) (progress : Rat)
  | settle (index : Nat) (sent : Sent)
  | pause (itemId : String)
  /-- The node cancels the downloads for a pause, if there are any. -/
  | cancel (pause : Nat) (any : Bool)
  /-- The pause goes on with the node's answer. -/
  | confirm (pause : Nat)
  | resume (itemId : String)

def createTransferQueue (ids : List String) : Queue where
  items := ids.map fun id => { id }

namespace Queue

variable (q : Queue)

def updateItem (id : String) (patch : TransferQueueItem → TransferQueueItem) : Queue :=
  { q with items := q.items.map fun item => if item.id = id then patch item else item }

def blake3 (itemId : String) : Option String :=
  ((q.items.find? (·.id = itemId)).bind (·.blobTransferBlake3)).filter (· ≠ "")

def inFlight (itemId : String) : Bool :=
  q.sending.any fun index => (q.items[index]?).any (·.id = itemId)

def start : Queue :=
  match q.items[q.nextIndex]? with
  | none => q
  | some item =>
    { q with nextIndex := q.nextIndex + 1, sending := q.sending ++ [q.nextIndex] }.updateItem item.id
      ({ · with status := .active })

def report (index : Nat) (patch : TransferQueueItem → TransferQueueItem) : Queue :=
  match q.items[index]? with
  | none => q
  | some item => q.updateItem item.id patch

def settle (index : Nat) (sent : Sent) : Queue :=
  match q.items[index]? with
  | none => q
  | some item =>
    if index ∉ q.sending then q
    else
      let freed := { q with sending := q.sending.erase index }
      match sent.failure with
      | some message =>
        { freed with
          finished := update q.finished item.id (q.finished item.id || !q.cut item.id) }.updateItem
          item.id ({ · with status := .failed, error := some message })
      | none =>
        { freed with finished := update q.finished item.id true }.updateItem item.id
          ({ · with status := .completed, progress := some 1 })

def pauseTransferQueueItem (itemId : String) : Queue :=
  match q.blake3 itemId with
  | none => q
  | some blake3 => { q with pauses := q.pauses ++ [{ itemId, blake3 }] }

def cancel (i : Nat) (any : Bool) : Queue :=
  match q.pauses[i]? with
  | none => q
  | some pause =>
    if pause.cancelled.isSome then q
    else { q with
      pauses := q.pauses.set i { pause with cancelled := some any, early := q.finished pause.itemId }
      cut := update q.cut pause.itemId (q.cut pause.itemId || (any && q.inFlight pause.itemId)) }

def confirm (i : Nat) : Queue :=
  match q.pauses[i]? with
  | none => q
  | some pause =>
    match pause.cancelled with
    | none => q
    | some false => { q with pauses := q.pauses.eraseIdx i }
    | some true =>
      { q with
        pauses := q.pauses.eraseIdx i
        held := update q.held pause.itemId !pause.early }.updateItem pause.itemId
          ({ · with status := .paused })

def resumeTransferQueueItem (itemId : String) : Queue :=
  match q.blake3 itemId with
  | none => q
  | some _ => { q with held := update q.held itemId false }.updateItem itemId
      ({ · with status := .active })

def step : Op → Queue → Queue
  | .start, q => q.start
  | .reportBlake3 index blake3, q => q.report index ({ · with blobTransferBlake3 := some blake3 })
  | .reportProgress index progress, q => q.report index ({ · with progress := some progress })
  | .reportTransferQueueItemProgress itemId progress, q =>
    q.updateItem itemId ({ · with progress := some progress })
  | .settle index sent, q => q.settle index sent
  | .pause itemId, q => q.pauseTransferQueueItem itemId
  | .cancel i any, q => q.cancel i any
  | .confirm i, q => q.confirm i
  | .resume itemId, q => q.resumeTransferQueueItem itemId

/-- A paused item is paused, and one that has finished is neither active nor paused again. -/
structure Right : Prop where
  held : ∀ item ∈ q.items, q.held item.id = true → item.status = .paused
  finished : ∀ item ∈ q.items, q.finished item.id = true →
    item.status = .completed ∨ item.status = .failed

/-- An item that is started is pending, the send of a paused item does not settle, and an item that has
finished is neither paused nor resumed. -/
@[grind =] def fits (q : Queue) : Op → Bool
  | .start => (q.items[q.nextIndex]?).all (·.status = .pending)
  | .settle index _ => index ∉ q.sending || (q.items[index]?).all (·.status ≠ .paused)
  | .confirm i => (q.pauses[i]?).all fun pause =>
    pause.cancelled ≠ some true || !q.finished pause.itemId
  | .resume itemId => (q.blake3 itemId).isNone || !q.finished itemId
  | _ => true

structure Invariant (q : Queue) : Prop extends q.Right where
  alike : ∀ item ∈ q.items, ∀ other ∈ q.items, item.id = other.id → item.status = other.status

variable {q t : Queue} {id : String}

/-- A write of one status to the items of an id. What is marked as held or finished must fit it. -/
theorem Invariant.write (inv : q.Invariant) {status : TransferQueueItemStatus}
    {patch : TransferQueueItem → TransferQueueItem} (same : ∀ item, (patch item).id = item.id)
    (writes : ∀ item, (patch item).status = status) (items : t.items = q.items)
    (others : ∀ other, other ≠ id → t.held other = q.held other ∧ t.finished other = q.finished other)
    (held : t.held id = true → status = .paused)
    (finished : t.finished id = true → status = .completed ∨ status = .failed) :
    (t.updateItem id patch).Invariant := by
  have written : ∀ item ∈ (t.updateItem id patch).items, ∃ old ∈ q.items, item.id = old.id ∧
      item.status = if old.id = id then status else old.status := by
    intro item member
    obtain ⟨old, known, rfl⟩ := List.mem_map.mp member
    refine ⟨old, items ▸ known, ?_⟩
    split
    · exact ⟨same old, writes old⟩
    · exact ⟨rfl, rfl⟩
  refine ⟨⟨fun item member marked => ?_, fun item member marked => ?_⟩,
    fun item member other member' alike => ?_⟩
  · obtain ⟨old, known, ids, became⟩ := written item member
    rw [became]
    split
    · rename_i here
      exact held (here ▸ ids ▸ marked)
    · rename_i elsewhere
      exact inv.held old known ((others _ elsewhere).1 ▸ ids ▸ marked)
  · obtain ⟨old, known, ids, became⟩ := written item member
    rw [became]
    split
    · rename_i here
      exact finished (here ▸ ids ▸ marked)
    · rename_i elsewhere
      exact inv.finished old known ((others _ elsewhere).2 ▸ ids ▸ marked)
  · obtain ⟨old, known, ids, became⟩ := written item member
    obtain ⟨old', known', ids', became'⟩ := written other member'
    have alike' : old.id = old'.id := ids.symm.trans (alike.trans ids')
    rw [became, became', alike', inv.alike old known old' known' alike']

theorem Invariant.patch (inv : q.Invariant) {patch : TransferQueueItem → TransferQueueItem}
    (same : ∀ item, (patch item).id = item.id ∧ (patch item).status = item.status) (id : String) :
    (q.updateItem id patch).Invariant := by
  have kept : ∀ item ∈ (q.updateItem id patch).items, ∃ old ∈ q.items, item.id = old.id ∧
      item.status = old.status := by
    intro item member
    obtain ⟨old, known, rfl⟩ := List.mem_map.mp member
    refine ⟨old, known, ?_⟩
    split
    · exact same old
    · exact ⟨rfl, rfl⟩
  refine ⟨⟨fun item member marked => ?_, fun item member marked => ?_⟩,
    fun item member other member' alike => ?_⟩
  · obtain ⟨old, known, ids, status⟩ := kept item member
    exact status.trans (inv.held old known (ids ▸ marked))
  · obtain ⟨old, known, ids, status⟩ := kept item member
    rw [status]
    exact inv.finished old known (ids ▸ marked)
  · obtain ⟨old, known, ids, status⟩ := kept item member
    obtain ⟨old', known', ids', status'⟩ := kept other member'
    rw [status, status']
    exact inv.alike old known old' known' (ids.symm.trans (alike.trans ids'))

theorem Invariant.report (inv : q.Invariant) {patch : TransferQueueItem → TransferQueueItem}
    (same : ∀ item, (patch item).id = item.id ∧ (patch item).status = item.status) (index : Nat) :
    (q.report index patch).Invariant := by
  unfold Queue.report
  split
  · exact inv
  · exact inv.patch same _

theorem Right.unmarked (right : q.Right) {item : TransferQueueItem} (member : item ∈ q.items) :
    (item.status ≠ .paused → q.held item.id = false) ∧
      (item.status = .pending → q.finished item.id = false) := by
  refine ⟨fun unpaused => Bool.eq_false_iff.mpr fun held => unpaused (right.held item member held),
    fun pending => Bool.eq_false_iff.mpr fun finished => ?_⟩
  rcases right.finished item member finished with ended | ended
  · exact absurd (pending.symm.trans ended) nofun
  · exact absurd (pending.symm.trans ended) nofun

theorem Invariant.start (inv : q.Invariant) (fits : q.fits .start = true) : q.start.Invariant := by
  unfold Queue.start
  cases next : q.items[q.nextIndex]? with
  | none => exact inv
  | some item =>
    dsimp only
    have pending : item.status = .pending := by simpa [Queue.fits, next] using fits
    obtain ⟨free, fresh⟩ := inv.toRight.unmarked (List.mem_of_getElem? next)
    refine inv.write (fun _ => rfl) (fun _ => rfl) rfl (fun _ _ => ⟨rfl, rfl⟩) (fun held => ?_)
      fun finished => ?_
    · exact absurd held (Bool.eq_false_iff.mp (free (by rw [pending]; nofun)))
    · exact absurd finished (Bool.eq_false_iff.mp (fresh pending))

theorem Invariant.settle (inv : q.Invariant) {index : Nat} {sent : Sent}
    (fits : q.fits (.settle index sent) = true) : (q.settle index sent).Invariant := by
  unfold Queue.settle
  cases found : q.items[index]? with
  | none => exact inv
  | some item =>
    dsimp only
    split
    · exact inv
    · rename_i sending
      have unpaused : item.status ≠ .paused := by simpa [Queue.fits, found, sending] using fits
      have free := (inv.toRight.unmarked (List.mem_of_getElem? found)).1 unpaused
      split
      · exact inv.write (fun _ => rfl) (fun _ => rfl) rfl
          (fun _ differs => ⟨rfl, update_of_ne differs _ _⟩)
          (fun held => absurd held (Bool.eq_false_iff.mp free)) fun _ => .inr rfl
      · exact inv.write (fun _ => rfl) (fun _ => rfl) rfl
          (fun _ differs => ⟨rfl, update_of_ne differs _ _⟩)
          (fun held => absurd held (Bool.eq_false_iff.mp free)) fun _ => .inl rfl

theorem Invariant.confirm (inv : q.Invariant) {i : Nat} (fits : q.fits (.confirm i) = true) :
    (q.confirm i).Invariant := by
  unfold Queue.confirm
  cases found : q.pauses[i]? with
  | none => exact inv
  | some pause =>
    dsimp only
    split
    · exact inv
    · exact ⟨⟨inv.held, inv.finished⟩, inv.alike⟩
    · rename_i cancelled
      have going : q.finished pause.itemId = false := by
        simpa [Queue.fits, found, cancelled] using fits
      exact inv.write (fun _ => rfl) (fun _ => rfl) rfl
        (fun _ differs => ⟨update_of_ne differs _ _, rfl⟩) (fun _ => rfl)
        fun finished => absurd finished (Bool.eq_false_iff.mp going)

theorem Invariant.resume (inv : q.Invariant) {itemId : String}
    (fits : q.fits (.resume itemId) = true) : (q.resumeTransferQueueItem itemId).Invariant := by
  unfold Queue.resumeTransferQueueItem
  cases found : q.blake3 itemId with
  | none => exact inv
  | some blake3 =>
    dsimp only
    have going : q.finished itemId = false := by simpa [Queue.fits, found] using fits
    refine inv.write (fun _ => rfl) (fun _ => rfl) rfl
      (fun _ differs => ⟨update_of_ne differs _ _, rfl⟩) (fun held => ?_)
      fun finished => absurd finished (Bool.eq_false_iff.mp going)
    exact absurd ((update_self ..).symm.trans held) nofun

theorem Invariant.step (inv : q.Invariant) {op : Op} (fits : q.fits op = true) :
    (step op q).Invariant := by
  cases op <;> rw [Queue.step]
  case start => exact inv.start fits
  case reportBlake3 index blake3 =>
    refine inv.report ?_ index
    exact fun _ => ⟨rfl, rfl⟩
  case reportProgress index progress =>
    refine inv.report ?_ index
    exact fun _ => ⟨rfl, rfl⟩
  case reportTransferQueueItemProgress itemId progress =>
    refine inv.patch ?_ itemId
    exact fun _ => ⟨rfl, rfl⟩
  case settle index sent => exact inv.settle fits
  case pause itemId =>
    unfold pauseTransferQueueItem
    split
    · exact inv
    · exact ⟨⟨inv.held, inv.finished⟩, inv.alike⟩
  case cancel i any =>
    unfold cancel
    split
    · exact inv
    · split
      · exact inv
      · exact ⟨⟨inv.held, inv.finished⟩, inv.alike⟩
  case confirm i => exact inv.confirm fits
  case resume itemId => exact inv.resume fits

/-- In every run whose steps fit, a paused item stays paused and one that has finished stays so. -/
theorem right_of_run {ids : List String} {ops taken : List Op}
    (fits : Meets step (fun op q => q.fits op = true) ops (createTransferQueue ids))
    (initial : taken <+: ops) : (runAll step taken (createTransferQueue ids)).Right := by
  have start : (createTransferQueue ids).Invariant := by
    refine ⟨⟨nofun, nofun⟩, fun item member other member' _ => ?_⟩
    obtain ⟨_, -, rfl⟩ := List.mem_map.mp member
    obtain ⟨_, -, rfl⟩ := List.mem_map.mp member'
    rfl
  have keeps : ∀ op q, q.fits op = true → q.Invariant → (step op q).Invariant :=
    fun _ _ fits inv => inv.step fits
  exact ((fits.of_prefix initial).keeps keeps start).toRight

def cutInTime : List Op :=
  [.start, .reportBlake3 0 "hash", .reportProgress 0 (1 / 2), .pause "song", .cancel 0 true,
    .settle 0 (.throws "cancelled"), .confirm 0]

theorem cutInTime_right : (runAll step cutInTime (createTransferQueue ["song"])).Right :=
  right_of_run (by decide) List.prefix_rfl

def cutTooLate : List Op :=
  [.start, .reportBlake3 0 "hash", .pause "song", .cancel 0 true, .confirm 0,
    .settle 0 (.throws "cancelled")]

def resumedAfterwards : List Op :=
  [.start, .reportBlake3 0 "hash", .settle 0 (.returned none), .resume "song"]

theorem paused_item_fails : ¬(runAll step cutTooLate (createTransferQueue ["song"])).Right ∧
    ¬(runAll step resumedAfterwards (createTransferQueue ["song"])).Right := by
  refine ⟨fun right => ?_, fun right => ?_⟩
  · exact absurd (right.held _ (.head _) (by decide)) (by decide)
  · exact absurd (right.finished _ (.head _) (by decide)) (by decide)

end Queue

end Tomb.Spume.Transfers.ItemPause
