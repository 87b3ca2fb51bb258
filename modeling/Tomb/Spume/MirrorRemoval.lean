import Mathlib.Data.List.Nodup
import Tomb.Lib.Runs
import Tomb.Spume.RemoteQueueMirror

/-! When a removal that is mirrored onto a remote player takes just its entry out of the queue. -/
namespace Tomb.Spume
open Rathole Tomb.Lib

/-- Every entry that has left the queue was removed by the client; and once nothing is under way, every
entry that the client removed has left the queue, unless its removal was given up. -/
structure Contract (before : List Slot) (s : Mirror) : Prop where
  kept : s.app.queue.Sublist before
  only : ∀ slot ∈ before, slot ∉ s.app.queue → slot ∈ s.removals
  done : s.actionTx = [] → s.commands = [] → s.pendingEdits = [] →
    ∀ slot ∈ s.removals, slot ∈ s.app.queue → slot.hash ∈ s.givenUp

def resent (status : PlayerStatus) (pendingEdits : List PendingRemoteEdit) :
    List PendingRemoteEdit :=
  pendingEdits.filter fun edit => (liveIndexByHash edit.hash status.common.queue).isSome &&
    decide (edit.attempts < maxPendingEditAttempts)

/-- The client removes an entry while no command is under way, by the index that the entry has both in
the status that it sees and in the queue, where no other entry has its hash. A status is taken while
the radio is off. A status that makes the client send a removal again comes while no command is under
way, shows the queue as it is, and makes it send one only. -/
def Act.Allowed : Act → Mirror → Prop
  | .remove slot localIndex currentIndex, s =>
    0 ≤ currentIndex → 0 ≤ localIndex - currentIndex →
      s.actionTx = [] ∧ s.commands = [] ∧
      s.remoteQueue[(localIndex - currentIndex).toNat]?.map (·.blake3Hash) = some slot.hash ∧
      s.app.queue[(localIndex - currentIndex).toNat]? = some slot ∧
      ∀ other ∈ s.app.queue, other.hash = slot.hash → other = slot
  | .deliverCommand _ _ _, s => s.app.radio = none
  | .report _ _, s => s.app.radio = none
  | .applyStatus n, s =>
    match s.statuses[n]? with
    | none => True
    | some status => resent status s.pendingEdits ≠ [] →
        s.actionTx = [] ∧ s.commands = [] ∧ status.common.queue = s.app.queue.map Slot.ref ∧
          (resent status s.pendingEdits).length = 1
  | _, _ => True

instance (act : Act) (s : Mirror) : Decidable (act.Allowed s) := by
  unfold Act.Allowed
  split
  · infer_instance
  · infer_instance
  · infer_instance
  · split <;> infer_instance
  · infer_instance

/-! The index of a hash. -/

variable {queue : List MediaRef}

theorem liveIndexByHash_eq_some {hash : String} {index : Nat}
    (live : liveIndexByHash hash queue = some index) :
    ∃ ref, queue[index]? = some ref ∧ ref.blake3Hash = hash := by
  induction queue generalizing index with
  | nil => cases live
  | cons first rest ih =>
    rw [liveIndexByHash] at live
    cases later : liveIndexByHash hash rest with
    | some position =>
      rw [later] at live
      cases live
      exact ih later
    | none =>
      rw [later] at live
      simp only at live
      split at live
      · rename_i same
        cases live
        exact ⟨first, rfl, same⟩
      · cases live

theorem liveIndexByHash_isSome {hash : String}
    (shown : hash ∈ queue.map (·.blake3Hash)) : (liveIndexByHash hash queue).isSome := by
  induction queue with
  | nil => cases shown
  | cons first rest ih =>
    rw [liveIndexByHash]
    cases later : liveIndexByHash hash rest with
    | some position => rfl
    | none =>
      rcases List.mem_cons.mp shown with here | there
      · simp [here.symm]
      · have live := ih there
        rw [later] at live
        cases live

/-! What a status makes of removals. -/

variable {edit : PendingRemoteEdit}

theorem reconcileEdit_of_resent (kind : edit.kind = .remove) {index : Nat} (live : liveIndexByHash edit.hash queue = some index)
    (tries : edit.attempts < maxPendingEditAttempts) : reconcileEdit queue edit =
      (some { edit with attempts := edit.attempts + 1 }, [.removeFromQueue index]) := by
  simp [reconcileEdit, live, kind, tries]

theorem reconcileEdit_of_not_resent (kind : edit.kind = .remove)
    (stays : ¬ ((liveIndexByHash edit.hash queue).isSome &&
      decide (edit.attempts < maxPendingEditAttempts)) = true) :
    reconcileEdit queue edit = (none, []) := by
  unfold reconcileEdit
  cases live : liveIndexByHash edit.hash queue with
  | none => rfl
  | some index =>
    have tries : maxPendingEditAttempts ≤ edit.attempts := by simpa [live] using stays
    simp [kind, tries]

variable {status : PlayerStatus} {pendingEdits : List PendingRemoteEdit}

theorem reconcilePendingEdits_eq (removes : ∀ edit ∈ pendingEdits, edit.kind = .remove) :
    reconcilePendingEdits (some status) pendingEdits =
      reconcilePendingEdits (some status) (resent status pendingEdits) := by
  simp only [reconcilePendingEdits]
  induction pendingEdits with
  | nil => rfl
  | cons edit rest ih =>
    obtain ⟨kind, removes'⟩ := List.forall_mem_cons.mp removes
    obtain ⟨kept, sent⟩ := Prod.mk.inj (ih removes')
    rw [resent, List.filter_cons]
    split
    · rw [List.filterMap_cons, List.flatMap_cons, List.filterMap_cons, List.flatMap_cons, kept, sent]
      rfl
    · rename_i stays
      rw [List.filterMap_cons, List.flatMap_cons, reconcileEdit_of_not_resent kind stays, kept, sent]
      rfl

theorem mem_resent (again : edit ∈ resent status pendingEdits) :
    edit ∈ pendingEdits ∧ edit.attempts < maxPendingEditAttempts ∧
      ∃ index, liveIndexByHash edit.hash status.common.queue = some index := by
  obtain ⟨member, live⟩ := List.mem_filter.mp again
  simp only [Bool.and_eq_true, decide_eq_true_eq, Option.isSome_iff_exists] at live
  exact ⟨member, live.2, live.1⟩

theorem resent_or_abandoned {hash : String} (pending : hash ∈ pendingEdits.map (·.hash))
    (shown : hash ∈ status.common.queue.map (·.blake3Hash)) :
    hash ∈ (resent status pendingEdits).map (·.hash) ∨
      hash ∈ Mirror.abandoned status pendingEdits := by
  obtain ⟨edit, member, rfl⟩ := List.mem_map.mp pending
  have live := liveIndexByHash_isSome shown
  by_cases tries : edit.attempts < maxPendingEditAttempts
  · left
    refine List.mem_map_of_mem (List.mem_filter.mpr ⟨member, ?_⟩)
    simp [live, tries]
  · right
    refine List.mem_map_of_mem (List.mem_filter.mpr ⟨member, ?_⟩)
    simp [live, Nat.le_of_not_lt tries]

/-! One removal. -/

/-- What is under way is one command, for an entry that the client removed. -/
def Flight (s : Mirror) : Prop :=
  s.actionTx ++ s.commands = [] ∨
    ∃ index slot, s.actionTx ++ s.commands = [.removeFromQueue index] ∧
      s.app.queue[index]? = some slot ∧ slot ∈ s.removals

structure Inv (before : List Slot) (s : Mirror) : Prop where
  aligned : s.app.Aligned
  kept : s.app.queue.Sublist before
  only : ∀ slot ∈ before, slot ∉ s.app.queue → slot ∈ s.removals
  flight : Flight s
  shown : ∀ status ∈ s.statuses, ∀ slot ∈ s.app.queue,
    slot.hash ∈ status.common.queue.map (·.blake3Hash)
  edits : ∀ edit ∈ s.pendingEdits, edit.kind = .remove ∧
    ∀ slot ∈ s.app.queue, slot.hash = edit.hash → slot ∈ s.removals
  known : ∀ slot ∈ s.removals, slot ∈ s.app.queue →
    slot.hash ∈ s.pendingEdits.map (·.hash) ∨ slot.hash ∈ s.givenUp

namespace Inv

variable {before : List Slot} {s : Mirror}

theorem contract (inv : Inv before s) : Contract before s where
  kept := inv.kept
  only := inv.only
  done _ _ none slot removed here := by
    rcases inv.known slot removed here with pending | givenUp
    · rw [none] at pending
      cases pending
    · exact givenUp

theorem start {app : App QueueEntry} (aligned : app.Aligned) :
    Inv (Mirror.start app).app.queue (Mirror.start app) where
  aligned := Mirror.aligned_start aligned
  kept := List.Sublist.refl _
  only slot here gone := absurd here gone
  flight := .inl rfl
  shown _ member := by cases member
  edits _ member := by cases member
  known _ member := by cases member

theorem lose (inv : Inv before s) {statuses : List PlayerStatus} {commands : List Command}
    (fewer : statuses ⊆ s.statuses) (less : commands.Sublist s.commands) :
    Inv before { s with statuses, commands } where
  aligned := inv.aligned
  kept := inv.kept
  only := inv.only
  flight := by
    rcases inv.flight with none | ⟨index, slot, one, here, removed⟩
    · obtain ⟨handled, sent⟩ := List.append_eq_nil_iff.mp none
      rw [sent] at less
      left
      exact List.append_eq_nil_iff.mpr ⟨handled, List.sublist_nil.mp less⟩
    · have less' : (s.actionTx ++ commands).Sublist [.removeFromQueue index] :=
        one ▸ (List.Sublist.refl _).append less
      rcases List.sublist_singleton.mp less' with none | same
      · exact .inl none
      · exact .inr ⟨index, slot, same, here, removed⟩
  shown status member := inv.shown status (fewer member)
  edits := inv.edits
  known := inv.known

theorem report (inv : Inv before s) (radio : s.app.radio = none) (isPlaying : Bool)
    (positionMs : Nat) :
    Inv before { s with statuses := s.statuses ++ [s.status isPlaying positionMs] } where
  aligned := inv.aligned
  kept := inv.kept
  only := inv.only
  flight := inv.flight
  shown status member slot here := by
    rcases List.mem_append.mp member with member | member
    · exact inv.shown status member slot here
    · cases List.mem_singleton.mp member
      rw [Mirror.status, DispatchContext.statusAck, DispatchContext.statusWithCommon_common,
        DispatchContext.common, DispatchContext.queueSnapshot_of inv.aligned radio, List.map_map]
      exact List.mem_map_of_mem here
  edits := inv.edits
  known := inv.known

/-- The ui loop handles the command: only the entry that it was sent for goes. -/
theorem handle (inv : Inv before s) {command : Command}
    {rest : List Command} (waiting : s.actionTx = command :: rest) :
    Inv before { s with app := command.handle s.app, actionTx := rest } := by
  rcases inv.flight with none | ⟨index, slot, one, here, removed⟩
  · rw [waiting] at none
    cases none
  rw [waiting] at one
  obtain ⟨rfl, after⟩ := List.cons.inj one
  have queue := s.app.queue_removeFromQueue index
  have less : (s.app.removeFromQueue index).queue.Sublist s.app.queue :=
    queue ▸ List.eraseIdx_sublist _ _
  refine ⟨App.aligned_removeFromQueue inv.aligned index, less.trans inv.kept, ?_, .inl after, ?_,
    ?_, ?_⟩
  · intro other member gone
    by_cases there : other ∈ s.app.queue
    · suffices other = slot from this ▸ removed
      by_contra differs
      refine gone ?_
      change other ∈ (s.app.removeFromQueue index).queue
      rw [queue, List.mem_eraseIdx_iff_getElem?]
      obtain ⟨position, at'⟩ := List.mem_iff_getElem?.mp there
      refine ⟨position, ?_, at'⟩
      rintro rfl
      exact differs (Option.some.inj (at'.symm.trans here))
    · exact inv.only other member there
  · intro status member other there
    exact inv.shown status member other (less.subset there)
  · intro edit member
    obtain ⟨kind, only⟩ := inv.edits edit member
    exact ⟨kind, fun other there => only other (less.subset there)⟩
  · intro other member there
    exact inv.known other member (less.subset there)

theorem deliver (inv : Inv before s) {n : Nat} {command : Command}
    (sent : s.commands[n]? = some command) :
    Inv before { s with
      commands := s.commands.eraseIdx n
      actionTx := s.actionTx ++ [command] } := by
  refine ⟨inv.aligned, inv.kept, inv.only, ?_, inv.shown, inv.edits, inv.known⟩
  have member := List.mem_of_getElem? sent
  rcases inv.flight with none | ⟨index, slot, one, here, removed⟩
  · rw [(List.append_eq_nil_iff.mp none).2] at member
    cases member
  · refine .inr ⟨index, slot, ?_, here, removed⟩
    rcases List.append_eq_singleton_iff.mp one with ⟨handled, only⟩ | ⟨-, none⟩
    · rw [only] at sent member
      cases List.mem_singleton.mp member
      have first : n = 0 := by
        have inside := (List.getElem?_eq_some_iff.mp sent).1
        simpa using inside
      subst first
      simp [handled, only]
    · rw [none] at member
      cases member

/-- A removal by the right index, of the only entry with its hash. -/
theorem remove (inv : Inv before s) {slot : Slot} {index : Nat} (handled : s.actionTx = [])
    (sent : s.commands = [])
    (seen : s.remoteQueue[index]?.map (·.blake3Hash) = some slot.hash)
    (here : s.app.queue[index]? = some slot)
    (unique : ∀ other ∈ s.app.queue, other.hash = slot.hash → other = slot) :
    Inv before (s.mirrorRemove slot index) := by
  have more : ∀ other ∈ s.removals, other ∈ s.removals ++ [slot] :=
    fun other member => List.mem_append_left _ member
  have last : slot ∈ s.removals ++ [slot] := List.mem_append_right _ (List.mem_singleton_self _)
  obtain ⟨target, shown, same⟩ := Option.map_eq_some_iff.mp seen
  have tracked : trackPendingEdit s.remoteQueue .remove index none s.pendingEdits =
      s.pendingEdits ++ [⟨.remove, slot.hash, none, 0⟩] := by
    simp [trackPendingEdit, shown, same]
  refine ⟨inv.aligned, inv.kept, ?_, ?_, inv.shown, ?_, ?_⟩
  · intro other member gone
    exact more other (inv.only other member gone)
  · refine .inr ⟨index, slot, ?_, here, last⟩
    simp [Mirror.mirrorRemove, handled, sent]
  · intro edit member
    rw [Mirror.mirrorRemove, tracked] at member
    rcases List.mem_append.mp member with member | member
    · obtain ⟨kind, only⟩ := inv.edits edit member
      exact ⟨kind, fun other there hash => more other (only other there hash)⟩
    · cases List.mem_singleton.mp member
      exact ⟨rfl, fun other there hash => unique other there hash ▸ last⟩
  · intro other member there
    rw [Mirror.mirrorRemove, tracked, List.map_append]
    rcases List.mem_append.mp member with member | member
    · rcases inv.known other member there with pending | givenUp
      · exact .inl (List.mem_append_left _ pending)
      · exact .inr givenUp
    · cases List.mem_singleton.mp member
      exact .inl (List.mem_append_right _ (List.mem_singleton_self _))

/-- A status that the client may see: it is told of no removal, or of one to send again. -/
theorem applyStatus (inv : Inv before s) {status : PlayerStatus}
    (shown : ∀ slot ∈ s.app.queue, slot.hash ∈ status.common.queue.map (·.blake3Hash))
    (fresh : resent status s.pendingEdits ≠ [] →
      s.actionTx = [] ∧ s.commands = [] ∧ status.common.queue = s.app.queue.map Slot.ref ∧
        (resent status s.pendingEdits).length = 1) :
    Inv before (s.applyRemoteStatus status) := by
  have same : reconcilePendingEdits (some status) s.pendingEdits =
      reconcilePendingEdits (some status) (resent status s.pendingEdits) :=
    reconcilePendingEdits_eq fun edit member => (inv.edits edit member).1
  have known : ∀ slot ∈ s.removals, slot ∈ s.app.queue →
      slot.hash ∈ (resent status s.pendingEdits).map (·.hash) ∨
        slot.hash ∈ s.givenUp ++ Mirror.abandoned status s.pendingEdits := by
    intro slot member here
    rcases inv.known slot member here with pending | givenUp
    · rcases resent_or_abandoned pending (shown slot here) with again | abandoned
      · exact .inl again
      · exact .inr (List.mem_append_right _ abandoned)
    · exact .inr (List.mem_append_left _ givenUp)
  cases again : resent status s.pendingEdits with
  | nil =>
    rw [again] at same known
    have nothing : reconcilePendingEdits (some status) s.pendingEdits = ([], []) := same
    refine ⟨inv.aligned, inv.kept, inv.only, ?_, inv.shown, ?_, ?_⟩
    · simpa [Flight, Mirror.applyRemoteStatus, nothing] using inv.flight
    · intro edit member
      rw [Mirror.applyRemoteStatus, nothing] at member
      cases member
    · rw [Mirror.applyRemoteStatus, nothing]
      exact known
  | cons edit rest =>
    obtain ⟨handled, sent, queue, one⟩ := fresh (by simp [again])
    rw [again] at one
    cases List.length_eq_zero_iff.mp (Nat.succ.inj one)
    rw [again] at same known
    obtain ⟨member, tries, index, live⟩ := mem_resent (again ▸ List.mem_singleton_self edit)
    obtain ⟨kind, only⟩ := inv.edits edit member
    have resends : reconcilePendingEdits (some status) s.pendingEdits =
        ([{ edit with attempts := edit.attempts + 1 }], [.removeFromQueue index]) := by
      rw [same]
      simp [reconcilePendingEdits, reconcileEdit_of_resent kind live tries]
    obtain ⟨ref, at', hash⟩ := liveIndexByHash_eq_some live
    rw [queue, List.getElem?_map] at at'
    obtain ⟨slot, here, rfl⟩ := Option.map_eq_some_iff.mp at'
    have removed : slot ∈ s.removals := only slot (List.mem_of_getElem? here) hash
    refine ⟨inv.aligned, inv.kept, inv.only, .inr ⟨index, slot, ?_, here, removed⟩, inv.shown,
      ?_, ?_⟩
    · simp [Mirror.applyRemoteStatus, resends, handled, sent]
    · intro other there
      rw [Mirror.applyRemoteStatus, resends] at there
      cases List.mem_singleton.mp there
      exact ⟨kind, only⟩
    · rw [Mirror.applyRemoteStatus, resends]
      exact known

theorem resetStatus (inv : Inv before s) : Inv before (s.step .resetStatus) := by
  refine ⟨inv.aligned, inv.kept, inv.only, inv.flight, inv.shown, ?_, ?_⟩
  · intro edit member
    simp only [Mirror.step] at member
    split at member
    · exact inv.edits edit member
    · cases member
  · intro slot member here
    simp only [Mirror.step]
    split
    · exact inv.known slot member here
    · rcases inv.known slot member here with pending | givenUp
      · exact .inr (List.mem_append_right _ pending)
      · exact .inr (List.mem_append_left _ givenUp)

theorem step (inv : Inv before s) (act : Act) (allowed : act.Allowed s) :
    Inv before (s.step act) := by
  cases act with
  | remove slot localIndex currentIndex =>
    simp only [Mirror.step]
    split
    · exact inv
    · rename_i mirrored
      obtain ⟨plays, behind⟩ := not_or.mp mirrored
      obtain ⟨handled, sent, seen, here, unique⟩ :=
        allowed (Int.not_lt.mp plays) (Int.not_lt.mp behind)
      exact inv.remove handled sent seen here unique
  | deliverCommand n isPlaying positionMs =>
    simp only [Mirror.step]
    cases sent : s.commands[n]? with
    | none => exact inv
    | some command => exact (inv.report allowed isPlaying positionMs).deliver sent
  | loseCommand n => exact inv.lose (List.Subset.refl _) (List.eraseIdx_sublist _ _)
  | handle =>
    simp only [Mirror.step]
    cases waiting : s.actionTx with
    | nil => exact inv
    | cons command rest => exact inv.handle waiting
  | report isPlaying positionMs => exact inv.report allowed isPlaying positionMs
  | applyStatus n =>
    simp only [Mirror.step]
    cases arrived : s.statuses[n]? with
    | none => exact inv
    | some status =>
      simp only [Act.Allowed, arrived] at allowed
      have shown := inv.shown status (List.mem_of_getElem? arrived)
      have fewer : s.statuses.eraseIdx n ⊆ s.statuses := List.eraseIdx_subset
      have taken := inv.lose fewer (List.Sublist.refl _)
      exact taken.applyStatus shown allowed
  | loseStatus n => exact inv.lose List.eraseIdx_subset (List.Sublist.refl _)
  | resetStatus => exact inv.resetStatus

end Inv

/-- In a run whose steps are all allowed, the removals take just their entries out of the queue. -/
theorem removals_exact_of_allowed {app : App QueueEntry} (aligned : app.Aligned) (acts : List Act)
    (allowed : Meets Mirror.step Act.Allowed acts (.start app)) :
    Contract (Mirror.start app).app.queue (runAll Mirror.step acts (.start app)) :=
  (allowed.keeps (fun act _ allowed inv => inv.step act allowed) (Inv.start aligned)).contract

def song (id : String) : QueueEntry :=
  .song ⟨id, id, none, none, none, none, none, none⟩

def twoSongs : App QueueEntry where
  queue := [song "a", song "b"]
  current := some 0
  history := []
  radio := none
  pendingPreviews := []
  unresolvedItems := []

theorem removal_after_status_exact :
    Contract (Mirror.start twoSongs).app.queue (runAll Mirror.step
      [.report true 0, .applyStatus 0, .remove ⟨song "a", 0⟩ 3 3, .deliverCommand 0 true 0, .handle,
        .report true 0, .applyStatus 1]
      (.start twoSongs)) :=
  @removals_exact_of_allowed twoSongs rfl _ (by decide)

/-- The acknowledgement of the removal shows the queue before it, so the removal is sent again. -/
theorem acknowledged_removal_repeats :
    twoSongs.Aligned ∧
      ¬ Contract (Mirror.start twoSongs).app.queue (runAll Mirror.step
        [.report true 0, .applyStatus 0, .remove ⟨song "a", 0⟩ 3 3, .deliverCommand 0 true 0,
          .handle, .applyStatus 0, .deliverCommand 0 true 0, .handle]
        (.start twoSongs)) := by
  refine ⟨rfl, fun contract => ?_⟩
  have lost := contract.only ⟨song "b", 1⟩ (by decide) (by decide)
  exact absurd lost (by decide)

end Tomb.Spume
