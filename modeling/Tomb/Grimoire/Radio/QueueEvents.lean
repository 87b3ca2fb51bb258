import Tomb.Lib.Replay
import Tomb.Grimoire.Radio.Requests

/-! The calls on a request queue, the events that they emit after they have changed it, and what a
subscriber makes of these events. The display data that an event carries along (title, artist, art,
user name) is left out. -/
namespace Tomb.Grimoire.Radio
open Tomb.Lib

structure RadioQueuedRequestInfo where
  id : String
  kind : RadioItemKind
  (itemId requestedBy : String)
  deriving DecidableEq

inductive RadioQueueEvent where
  | submitted (stationId : String) (request : RadioQueuedRequestInfo)
  | removed (stationId requestId : String)
  | reordered (stationId requestId : String) (newIndex : Nat)
  | cleared (stationId : String)

def RadioQueueEvent.stationId : RadioQueueEvent → String
  | .submitted stationId _ => stationId
  | .removed stationId _ => stationId
  | .reordered stationId _ _ => stationId
  | .cleared stationId => stationId

def QueuedRequest.info (r : QueuedRequest) : RadioQueuedRequestInfo :=
  ⟨r.id, r.kind, r.itemId, r.requestedBy⟩

def queueInfos (stationId : String) (reg : Registry) : List RadioQueuedRequestInfo :=
  ((reg stationId).elim [] StationQueue.items).map QueuedRequest.info

def snapshotForStation (now : Nat) (stationId : String) (reg : Registry) :
    List RadioQueuedRequestInfo × Registry :=
  let listed := Requests.list now stationId reg
  (listed.1.map QueuedRequest.info, listed.2)

/-- The calls that change a queue; the id of a submitted request is the one that it gets. -/
inductive QueueCall where
  | submitRequest (stationId id : String) (kind : RadioItemKind) (itemId requestedBy : String)
  | removeRequest (stationId requestId : String)
  | reorderRequest (stationId requestId : String) (newIndex : Int)
  | clearRequests (stationId : String)
  | pickForStation (stationId : String)

def submitRequest (now : Nat) (stationId id : String) (kind : RadioItemKind)
    (itemId requestedBy : String) (reg : Registry) : Option RadioQueueEvent × Registry :=
  (some (.submitted stationId ⟨id, kind, itemId, requestedBy⟩),
    Requests.submit stationId ⟨id, kind, itemId, requestedBy, now⟩ reg)

@[grind =] def removeRequest (stationId requestId : String) (reg : Registry) :
    Option RadioQueueEvent × Registry :=
  let (removed, reg) := Requests.remove stationId requestId reg
  (if removed then some (.removed stationId requestId) else none, reg)

def reorderRequest (stationId requestId : String) (newIndex : Int) (reg : Registry) :
    Option RadioQueueEvent × Registry :=
  let (movedTo, reg) := Requests.reorder stationId requestId newIndex.toNat reg
  (movedTo.map (.reordered stationId requestId), reg)

def clearRequests (stationId : String) (reg : Registry) : Option RadioQueueEvent × Registry :=
  (some (.cleared stationId), (Requests.clear stationId reg).2)

def pickForStation (now : Nat) (stationId : String) (reg : Registry) :
    Option RadioQueueEvent × Registry :=
  let (popped, reg) := Requests.popNext now stationId reg
  (popped.map fun r => .removed stationId r.id, reg)

namespace QueueCall

def stationId : QueueCall → String
  | submitRequest stationId _ _ _ _ => stationId
  | removeRequest stationId _ => stationId
  | reorderRequest stationId _ _ => stationId
  | clearRequests stationId => stationId
  | pickForStation stationId => stationId

def change (now : Nat) (reg : Registry) : QueueCall → Option RadioQueueEvent × Registry
  | submitRequest stationId id kind itemId requestedBy =>
    Radio.submitRequest now stationId id kind itemId requestedBy reg
  | removeRequest stationId requestId => Radio.removeRequest stationId requestId reg
  | reorderRequest stationId requestId newIndex =>
    Radio.reorderRequest stationId requestId newIndex reg
  | clearRequests stationId => Radio.clearRequests stationId reg
  | pickForStation stationId => Radio.pickForStation now stationId reg

end QueueCall

@[grind =] def applyEvent (rows : List RadioQueuedRequestInfo) :
    RadioQueueEvent → List RadioQueuedRequestInfo
  | .submitted _ request => if rows.any fun r => r.id = request.id then rows else rows ++ [request]
  | .removed _ requestId => rows.filter fun r => r.id ≠ requestId
  | .reordered _ requestId newIndex =>
    let fromIndex := rows.findIdx fun r => r.id = requestId
    if found : fromIndex < rows.length then
      let clamped := min newIndex (rows.length - 1)
      if clamped = fromIndex then rows
      else (rows.eraseIdx fromIndex).insertIdx clamped rows[fromIndex]
    else rows
  | .cleared _ => []

abbrev QueueChange := Change RadioQueuedRequestInfo String

@[grind =] def RadioQueueEvent.change : RadioQueueEvent → QueueChange
  | .submitted _ request => .append request
  | .removed _ requestId => .remove requestId
  | .reordered _ requestId newIndex => .move requestId newIndex
  | .cleared _ => .clear

def RadioQueueEvent.isReordered : RadioQueueEvent → Bool
  | .reordered _ _ _ => true
  | _ => false

theorem RadioQueueEvent.change_isMove (event : RadioQueueEvent) :
    event.change.isMove = event.isReordered := by
  cases event <;> rfl

section Refinement

variable {rows : List RadioQueuedRequestInfo} {items : List QueuedRequest} {reg : Registry}
  {stationId : String}

theorem lift_findIdx (requestId : String) (rows : List RadioQueuedRequestInfo) :
    Change.lift RadioQueuedRequestInfo.id requestId rows =
      if found : rows.findIdx (fun r => r.id = requestId) < rows.length then
        some (rows[rows.findIdx fun r => r.id = requestId],
          rows.eraseIdx (rows.findIdx fun r => r.id = requestId))
      else none := by
  induction rows with
  | nil => rfl
  | cons row rest ih =>
    by_cases same : row.id = requestId
    · simp [Change.lift, same, List.findIdx_cons]
    · have next : (row :: rest).findIdx (fun r => r.id = requestId) =
          rest.findIdx (fun r => r.id = requestId) + 1 := by
        simp [List.findIdx_cons, same]
      simp only [Change.lift, if_neg same, ih, next, List.length_cons, Nat.add_lt_add_iff_right]
      split
      · rfl
      · rfl

theorem applyEvent_eq (rows : List RadioQueuedRequestInfo) (event : RadioQueueEvent) :
    applyEvent rows event = Change.apply RadioQueuedRequestInfo.id rows event.change := by
  cases event with
  | submitted stationId request => simp [applyEvent, RadioQueueEvent.change, Change.apply]
  | removed stationId requestId => rfl
  | reordered stationId requestId newIndex =>
    simp only [applyEvent, RadioQueueEvent.change, Change.apply, lift_findIdx]
    by_cases found : rows.findIdx (fun r => r.id = requestId) < rows.length
    · simp only [dif_pos found, List.length_eraseIdx_of_lt found]
      split
      · rename_i same
        rw [same]
        exact (List.insertIdx_eraseIdx_getElem found).symm
      · rfl
    · simp only [dif_neg found]
  | cleared stationId => rfl

theorem lift_info (requestId : String) (items : List QueuedRequest) :
    Change.lift RadioQueuedRequestInfo.id requestId (items.map QueuedRequest.info) =
      (Requests.lift requestId items).map fun lifted =>
        (lifted.1.info, lifted.2.map QueuedRequest.info) := by
  induction items with
  | nil => rfl
  | cons r rest ih =>
    by_cases same : r.id = requestId
    · have same' : r.info.id = requestId := same
      simp only [List.map_cons, Change.lift, Requests.lift, if_pos same, if_pos same']
      rfl
    · have differs : ¬r.info.id = requestId := same
      simp only [List.map_cons, Change.lift, Requests.lift, if_neg same, if_neg differs, ih]
      cases Requests.lift requestId rest <;> rfl

def RadioQueueEvent.Suits (rows : List RadioQueuedRequestInfo) : RadioQueueEvent → Prop
  | .submitted _ request => request.id ∉ rows.map (·.id)
  | .removed _ requestId => requestId ∈ rows.map (·.id)
  | _ => True

/-- The queue after a call is the queue before it with the call's event applied. -/
def Reflects (before : List RadioQueuedRequestInfo) (event : Option RadioQueueEvent)
    (after : List RadioQueuedRequestInfo) : Prop :=
  match event with
  | none => after = before
  | some event => event.Suits before ∧ after = applyEvent before event

theorem queueInfos_some {q : StationQueue} (known : reg stationId = some q) :
    queueInfos stationId reg = q.items.map QueuedRequest.info := by
  rw [queueInfos, known]
  rfl

theorem queueInfos_none (known : reg stationId = none) : queueInfos stationId reg = [] := by
  rw [queueInfos, known]
  rfl

theorem queueInfos_update (q : StationQueue) :
    queueInfos stationId (Requests.update reg stationId (some q)) =
      q.items.map QueuedRequest.info := queueInfos_some (Requests.update_self _ _ _)

theorem submitRequest_reflects (now : Nat) {id : String} (kind : RadioItemKind)
    (itemId requestedBy : String) (new : id ∉ (queueInfos stationId reg).map (·.id)) :
    Reflects (queueInfos stationId reg)
      (submitRequest now stationId id kind itemId requestedBy reg).1
      (queueInfos stationId (submitRequest now stationId id kind itemId requestedBy reg).2) := by
  have absent : ¬(queueInfos stationId reg).any (fun r => r.id = id) = true := by
    simpa using new
  refine ⟨new, ?_⟩
  simp only [submitRequest, applyEvent, if_neg absent, Requests.submit, queueInfos_update,
    List.map_append, List.map_cons, List.map_nil]
  cases known : reg stationId with
  | none =>
    rw [queueInfos_none known]
    rfl
  | some q =>
    rw [queueInfos_some known]
    rfl

theorem removeRequest_reflects (requestId : String) :
    Reflects (queueInfos stationId reg) (removeRequest stationId requestId reg).1
      (queueInfos stationId (removeRequest stationId requestId reg).2) := by
  unfold removeRequest Requests.remove
  cases known : reg stationId with
  | none => rfl
  | some q =>
    have after : (q.items.filter fun r => r.id ≠ requestId).map QueuedRequest.info =
        (q.items.map QueuedRequest.info).filter fun r => r.id ≠ requestId := by
      rw [List.filter_map]
      rfl
    simp only [queueInfos_update, queueInfos_some known]
    by_cases kept : (q.items.filter fun r => r.id ≠ requestId).length = q.items.length
    · have same := List.filter_eq_self.mpr (List.length_filter_eq_length_iff.mp kept)
      simp only [ne_eq, decide_not] at kept same ⊢
      simp only [same, Reflects, decide_true, Bool.not_true, Bool.false_eq_true, if_false]
    · simp only [ne_eq, kept, not_false_eq_true, decide_true, if_true]
      refine ⟨?_, after⟩
      by_contra absent
      refine kept (congrArg List.length (List.filter_eq_self.mpr fun r member => ?_))
      refine decide_eq_true fun same => absent ?_
      exact List.mem_map.mpr ⟨r.info, List.mem_map_of_mem member, same⟩

theorem reorderRequest_reflects (requestId : String) (newIndex : Int) :
    Reflects (queueInfos stationId reg)
      (reorderRequest stationId requestId newIndex reg).1
      (queueInfos stationId (reorderRequest stationId requestId newIndex reg).2) := by
  unfold reorderRequest Requests.reorder
  cases known : reg stationId with
  | none => rfl
  | some q =>
    cases lifted : Requests.lift requestId q.items with
    | none =>
      simp only [lifted]
      rfl
    | some found =>
      obtain ⟨item, rest⟩ := found
      simp only [lifted]
      refine ⟨trivial, ?_⟩
      simp only [queueInfos_update, queueInfos_some known, applyEvent_eq, RadioQueueEvent.change,
        Change.apply, lift_info, lifted, Option.map_some, List.length_map, List.map_insertIdx]
      rw [Nat.min_assoc, Nat.min_self]

theorem clearRequests_reflects :
    Reflects (queueInfos stationId reg) (clearRequests stationId reg).1
      (queueInfos stationId (clearRequests stationId reg).2) := by
  refine ⟨trivial, ?_⟩
  unfold clearRequests Requests.clear
  cases known : reg stationId with
  | none => exact queueInfos_none known
  | some q => exact queueInfos_update _

theorem pickForStation_reflects (now : Nat)
    (distinct : ((snapshotForStation now stationId reg).1.map (·.id)).Nodup) :
    Reflects (snapshotForStation now stationId reg).1
      (pickForStation now stationId reg).1
      (queueInfos stationId (pickForStation now stationId reg).2) := by
  unfold snapshotForStation at distinct ⊢
  unfold pickForStation
  cases known : reg stationId with
  | none =>
    simp only [Requests.popNext_missing known, Requests.list_missing known]
    exact queueInfos_none known
  | some q =>
    cases expired : q.hasEverHadListener && q.isIdleExpired now with
    | true =>
      simp only [Requests.popNext_expired known expired, Requests.list_expired known expired]
      exact queueInfos_none (Requests.update_self _ _ _)
    | false =>
      simp only [Requests.list_live known expired] at distinct
      simp only [Requests.popNext_live known expired, Requests.list_live known expired,
        queueInfos_update]
      cases swept : (q.sweepUnheard now).items with
      | nil => rfl
      | cons r rest =>
        rw [swept] at distinct
        refine ⟨List.mem_cons_self, ?_⟩
        have others : ∀ other ∈ rest.map QueuedRequest.info, other.id ≠ r.id := by
          intro other member same
          have apart := (List.nodup_cons.mp distinct).1
          have there : other.id ∈ (rest.map QueuedRequest.info).map (·.id) :=
            List.mem_map_of_mem member
          rw [same] at there
          exact apart there
        have kept := List.filter_eq_self.mpr fun other member => decide_eq_true (others other member)
        simpa [applyEvent, QueuedRequest.info] using kept.symm

theorem QueueCall.change_station {call : QueueCall} {now : Nat} {event : RadioQueueEvent}
    (emits : (call.change now reg).1 = some event) : event.stationId = call.stationId := by
  cases call with
  | submitRequest stationId id kind itemId requestedBy =>
    cases emits
    rfl
  | removeRequest stationId requestId =>
    simp only [change, Radio.removeRequest, Option.ite_none_right_eq_some, Option.some.injEq] at emits
    rw [← emits.2]
    rfl
  | reorderRequest stationId requestId newIndex =>
    obtain ⟨_, -, rfl⟩ := Option.map_eq_some_iff.mp emits
    rfl
  | clearRequests stationId =>
    cases emits
    rfl
  | pickForStation stationId =>
    obtain ⟨_, -, rfl⟩ := Option.map_eq_some_iff.mp emits
    rfl

theorem snapshotForStation_queue (now : Nat) : queueInfos stationId
    (snapshotForStation now stationId reg).2 = (snapshotForStation now stationId reg).1 := by
  unfold snapshotForStation
  cases known : reg stationId with
  | none =>
    simp only [Requests.list_missing known]
    exact queueInfos_none known
  | some q =>
    cases expired : q.hasEverHadListener && q.isIdleExpired now with
    | true =>
      simp only [Requests.list_expired known expired]
      exact queueInfos_none (Requests.update_self _ _ _)
    | false =>
      simp only [Requests.list_live known expired]
      exact queueInfos_update _

theorem snapshotForStation_sublist (now : Nat) :
    (snapshotForStation now stationId reg).1.Sublist (queueInfos stationId reg) := by
  unfold snapshotForStation
  cases known : reg stationId with
  | none =>
    simp only [Requests.list_missing known]
    exact List.nil_sublist _
  | some q =>
    cases expired : q.hasEverHadListener && q.isIdleExpired now with
    | true =>
      simp only [Requests.list_expired known expired]
      exact List.nil_sublist _
    | false =>
      simp only [Requests.list_live known expired, queueInfos_some known]
      refine List.Sublist.map _ ?_
      unfold StationQueue.sweepUnheard
      split
      · exact .refl _
      · exact List.filter_sublist

theorem queueInfos_markActive (target : String) :
    queueInfos stationId (Requests.markActive target reg) = queueInfos stationId reg := by
  by_cases differs : stationId = target
  · subst differs
    unfold Requests.markActive
    cases known : reg stationId with
    | none => rfl
    | some q => rw [queueInfos_update, queueInfos_some known]
  · exact congrArg (fun q => (Option.elim q [] StationQueue.items).map QueuedRequest.info)
      (Requests.markActive_elsewhere differs)

theorem queueInfos_markIdle (now : Nat) (target : String) :
    queueInfos stationId (Requests.markIdle now target reg) = queueInfos stationId reg := by
  by_cases differs : stationId = target
  · subst differs
    unfold Requests.markIdle
    cases known : reg stationId with
    | none => rfl
    | some q =>
      simp only
      split
      · rw [queueInfos_update, queueInfos_some known]
      · rfl
  · exact congrArg (fun q => (Option.elim q [] StationQueue.items).map QueuedRequest.info)
      (Requests.markIdle_elsewhere differs now)

theorem QueueCall.change_elsewhere (call : QueueCall) (now : Nat) (reg : Registry) {other : String}
    (differs : other ≠ call.stationId) : (call.change now reg).2 other = reg other := by
  cases call with
  | submitRequest stationId id kind itemId requestedBy =>
    exact Requests.submit_elsewhere differs _
  | removeRequest stationId requestId => exact Requests.remove_elsewhere differs requestId
  | reorderRequest stationId requestId newIndex =>
    exact Requests.reorder_elsewhere differs requestId _
  | clearRequests stationId => exact Requests.clear_elsewhere differs
  | pickForStation stationId => exact Requests.popNext_elsewhere differs now

end Refinement

end Tomb.Grimoire.Radio
