import Tomb.Grimoire.Operations

/-! Taking a peer node away from its user. The lookup of a node follows whatever identity its
device carries; the removal looks for the identity derived from the user id. -/
namespace Tomb.Grimoire

open Lib
open Haruspex (DeviceNode)

def Revoked (devices : Table DeviceNode.nodeId) (nodeId : String) : Prop :=
  ∀ device, devices.get nodeId = some device → device.deletedAt ≠ none

abbrev Db.Revoked (s : Db) (nodeId : String) : Prop := Grimoire.Revoked s.stores.devices nodeId

variable {nodeId : String}

theorem findUserByNodeId_of_revoked {s : Db} (revoked : s.Revoked nodeId) :
    ((UserRepository.findUserByNodeId nodeId).run s).1 = .ok none := by
  have none_live : (s.stores.resolveDevice nodeId).filter (fun device => device.deletedAt.isNone) =
      none := by
    cases found : s.stores.resolveDevice nodeId with
    | none => rfl
    | some device => simp [revoked device found]
  simp only [UserRepository.findUserByNodeId, Prog.run_bind, Prog.run_issue, machine_exec,
    Cmd.exec, Haruspex.Cmd.exec, none_live]
  rfl

/-- The device is registered to the identity derived from the user id. -/
def Db.OwnsNode (s : Db) (userId : Nat) (nodeId : String) : Prop :=
  ∃ device, s.stores.resolveDevice nodeId = some device ∧
    device.identityId = identityIdForExistingUser userId

theorem run_removePeerNode_of_owns {s : Db} {userId : Nat} (owns : s.OwnsNode userId nodeId) :
    (UserService.removePeerNode userId nodeId).run s =
      (.ok ⟨"Peer node removed", ()⟩, { s with stores := s.stores.removeDevice nodeId }) := by
  obtain ⟨device, found, own⟩ := owns
  simp [UserService.removePeerNode, UserRepository.removePeerNode, UserRepository.ownDevice,
    Cmd.exec, Haruspex.Cmd.exec, found, own, Except.mapError]

theorem run_removePeerNode_of_not_owns {s : Db} {userId : Nat}
    (foreign : ¬s.OwnsNode userId nodeId) :
    (UserService.removePeerNode userId nodeId).run s = (.ok ⟨"Peer node removed", ()⟩, s) := by
  have other : ∀ device, s.stores.resolveDevice nodeId = some device →
      device.identityId ≠ identityIdForExistingUser userId := fun device found own =>
    foreign ⟨device, found, own⟩
  cases found : s.stores.resolveDevice nodeId with
  | none => simp [UserService.removePeerNode, UserRepository.removePeerNode,
      UserRepository.ownDevice, Cmd.exec, Haruspex.Cmd.exec, found, Except.mapError]
  | some device => simp [UserService.removePeerNode, UserRepository.removePeerNode,
      UserRepository.ownDevice, Cmd.exec, Haruspex.Cmd.exec, found, other device found,
      Except.mapError]

namespace Revoked

variable {devices : Table DeviceNode.nodeId} {nodeId : String}

theorem update {p : DeviceNode → Bool} {f : DeviceNode → DeviceNode}
    (revoked : Revoked devices nodeId) (keeps : ∀ device, (f device).nodeId = device.nodeId)
    (spares : ∀ device, device.nodeId = nodeId → p device = true → device.deletedAt ≠ none →
      (f device).deletedAt ≠ none) : Revoked (devices.update p f keeps) nodeId := by
  intro device found
  rw [Table.get_update, Option.map_eq_some_iff] at found
  obtain ⟨old, known, rfl⟩ := found
  split
  · rename_i hit
    exact spares old ((Table.get_eq_some _ _ _).mp known).2 hit (revoked old known)
  · exact revoked old known

theorem deleteWhere {p : DeviceNode → Bool} (revoked : Revoked devices nodeId) :
    Revoked (devices.deleteWhere p) nodeId := by
  intro device found
  obtain ⟨member, same⟩ := (Table.get_eq_some _ _ _).mp found
  exact revoked device
    ((Table.get_eq_some _ _ _).mpr ⟨((Table.mem_deleteWhere ..).mp member).1, same⟩)

theorem upsert {device : DeviceNode} (revoked : Revoked devices nodeId)
    (other : nodeId ≠ device.nodeId) : Revoked (devices.upsert device) nodeId := by
  intro found known
  rw [Table.get_upsert, if_neg other] at known
  exact revoked found known

end Revoked

theorem removeDevice_revoked (s : Db) (nodeId : String) :
    ({ s with stores := s.stores.removeDevice nodeId } : Db).Revoked nodeId := by
  intro device found
  simp only [Haruspex.Stores.removeDevice, Table.get_update, Option.map_eq_some_iff] at found
  obtain ⟨old, known, rfl⟩ := found
  have same := ((Table.get_eq_some _ _ _).mp known).2
  split <;> simp_all

@[grind =] def revivals (nodeId : String) : Set Cmd.Effect :=
  {.haruspex (.addDevice nodeId), .haruspex (.forceReassignDevice nodeId)}

theorem Cmd.exec_revoked {β : Type} (command : Cmd β) {s : Db}
    (other : command.effect ∉ revivals nodeId) (revoked : s.Revoked nodeId) :
    (command.exec s).2.Revoked nodeId := by
  cases command with
  | users command =>
    have same : (command.exec s).2.stores = s.stores := command.exec_stores s
    simpa only [Db.Revoked, Cmd.exec, same] using revoked
  | haruspex command =>
    show Revoked (command.exec s.stores).2.devices nodeId
    by_cases writes : Haruspex.Relation.devices ∈ command.effect.writes
    · cases command with
      | addDevice device =>
        have different : nodeId ≠ device.nodeId := by
          rintro rfl
          exact other (Set.mem_insert _ _)
        simp only [Haruspex.Cmd.exec, Haruspex.Stores.addDevice]
        split
        · split
          · exact revoked
          · exact revoked.update (fun _ => by rfl) fun row same hit _ =>
              absurd (same.symm.trans (of_decide_eq_true hit)) different
        · split
          · exact revoked
          · exact revoked.upsert different
      | forceReassignDevice target id =>
        have different : nodeId ≠ target := by
          rintro rfl
          exact other (Set.mem_insert_of_mem _ rfl)
        simp only [Haruspex.Cmd.exec, Haruspex.Stores.forceReassignDevice]
        split
        · exact revoked
        split
        · exact revoked
        · exact revoked.update (fun _ => by rfl) fun row same hit _ =>
            absurd (same.symm.trans (of_decide_eq_true hit)) different
      | touchDevice target lastSeenAt => exact revoked.update (fun _ => by rfl) fun _ _ _ deleted => deleted
      | removeDevice target => exact revoked.update (fun _ => by rfl) fun _ _ _ _ => Option.some_ne_none _
      | hardDeleteDevice target => exact revoked.deleteWhere
      | hardDeleteIdentity id => exact revoked.deleteWhere
      | _ => simp [Haruspex.Cmd.Effect.writes] at writes
    · have same : (command.exec s.stores).2.devices = s.stores.devices :=
        command.exec_frame s.stores writes
      rw [same]
      exact revoked

/-- The calls of the service that link or restore the node id. -/
@[grind =] def ServiceOp.AddsNode (nodeId : String) : ServiceOp → Prop
  | .upsertPeerNode _ node _ => node = nodeId
  | .addPeerNode _ node _ => node = nodeId
  | .restorePeerNode _ node => node = nodeId
  | .reassignPeerNodeUser node _ => node = nodeId
  | _ => False

/-- The operations that link or restore the node id; accepting a knock does so for the node that
knocked, and a finished p2p ceremony for the node it came from. -/
def Op.AddsNode (nodeId : String) (s : Db) : Op → Prop
  | .service op => op.AddsNode nodeId
  | .acceptKnock id _ _ => ∃ record, s.stores.getKnock id = some record ∧ record.nodeId = nodeId
  | .p2pRegisterFinish _ _ _ node => node = some nodeId
  | .p2pLoginFinish _ _ _ node => node = some nodeId
  | _ => False

theorem ends_revoked {ε α : Type} {p : Prog Cmd ε α} {s : Db}
    (uses : p.Within (Cmd.Uses (revivals nodeId)ᶜ)) (revoked : s.Revoked nodeId) :
    p.Ends (fun _ _ => True) s fun _ t => t.Revoked nodeId :=
  uses.ends (fun command _ used _ revoked => command.exec_revoked used revoked) revoked

theorem Knock.acceptKnock_revoked {id : Haruspex.Uuid} (request : ProcessKnockRequest)
    (adminUserId : String) {s : Db}
    (other : ∀ record, s.stores.getKnock id = some record → record.nodeId ≠ nodeId)
    (revoked : s.Revoked nodeId) :
    ((acceptKnock id request adminUserId).run s).2.Revoked nodeId := by
  have ends : (acceptKnock id request adminUserId).Ends (fun _ _ => True) s
      fun _ t => t.Revoked nodeId := by
    simp only [acceptKnock, pendingKnock, Prog.ends_bind, Prog.ends_issue, Prog.ends_ofOption,
      Prog.ends_require]
    refine fun _ => ⟨fun record found => ⟨fun _ => ends_revoked ?_ revoked, fun _ => revoked⟩,
      fun _ => revoked⟩
    have different : record.nodeId ≠ nodeId := other record found
    simp [revivals, Set.insert_subset_iff, different]
  exact Prog.ends_true.mp ends

theorem ServiceOp.spares_revivals {op : ServiceOp}
    (other : ¬op.AddsNode nodeId) : revivals nodeId ⊆ op.effectsᶜ := by
  cases op <;>
    simp_all [revivals, ServiceOp.effects, ServiceOp.AddsNode, Set.insert_subset_iff, eq_comm]

theorem Op.perform_revoked (site : Webauthn.Site) (op : Op) {s : Db}
    (other : ¬op.AddsNode nodeId s) (revoked : s.Revoked nodeId) :
    (op.perform site s).Revoked nodeId := by
  have others (spares : revivals nodeId ⊆ op.effectsᶜ) : (op.perform site s).Revoked nodeId :=
    op.perform_keeps site (fun t => t.Revoked nodeId) (fun _ _ revoked => revoked)
      (fun command _ used revoked => command.exec_revoked (fun revives => spares revives used)
        revoked) revoked
  cases op with
  | service op => exact others (ServiceOp.spares_revivals other)
  | acceptKnock id request adminUserId =>
    simpa [perform, prog] using Knock.acceptKnock_revoked request adminUserId
      (fun record found same => other ⟨record, found, same⟩) revoked
  | _ =>
    refine others ?_
    clear others revoked
    simp_all [revivals, effects, AddsNode, Set.insert_subset_iff, eq_comm]

/-- Removing a peer node takes the node away for good, whatever follows short of linking it again,
if and only if its device is registered to the identity derived from its user's id. -/
theorem revocation_effective_iff (site : Webauthn.Site) (s : Db) (nodeId : String) (user : User)
    (linked : ((UserRepository.findUserByNodeId nodeId).run s).1 = .ok (some user)) :
    (((UserService.removePeerNode user.id nodeId).run s).1 = .ok ⟨"Peer node removed", ()⟩ ∧
      ∀ ops, Meets (Op.perform site) (fun op t => ¬op.AddsNode nodeId t) ops
          ((UserService.removePeerNode user.id nodeId).run s).2 →
        ((UserRepository.findUserByNodeId nodeId).run
          (serve site ops ((UserService.removePeerNode user.id nodeId).run s).2)).1 = .ok none) ↔
      s.OwnsNode user.id nodeId := by
  constructor
  · rintro ⟨_, stays⟩
    by_contra foreign
    rw [run_removePeerNode_of_not_owns foreign] at stays
    have gone := stays [] trivial
    rw [serve, runAll_nil, linked] at gone
    cases gone
  · intro owns
    rw [run_removePeerNode_of_owns owns]
    exact ⟨rfl, fun ops meets => findUserByNodeId_of_revoked
      (meets.keeps (fun op _ spares revoked => op.perform_revoked site spares revoked)
        (removeDevice_revoked s nodeId))⟩

def linkedPhone : Db :=
  serve Webauthn.trustingSite
    [.service (.registerUser ⟨"alice", none, none⟩), .service (.addPeerNode 0 "phone" none)]
    Db.empty

theorem revocation_effective_of_linked :
    ((UserService.removePeerNode 0 "phone").run linkedPhone).1 = .ok ⟨"Peer node removed", ()⟩ ∧
      ∀ ops, Meets (Op.perform Webauthn.trustingSite) (fun op t => ¬op.AddsNode "phone" t) ops
          ((UserService.removePeerNode 0 "phone").run linkedPhone).2 →
        ((UserRepository.findUserByNodeId "phone").run (serve Webauthn.trustingSite ops
          ((UserService.removePeerNode 0 "phone").run linkedPhone).2)).1 = .ok none :=
  (revocation_effective_iff Webauthn.trustingSite linkedPhone "phone"
    ⟨0, "alice", .member, none, 0, 0, none, none⟩ (by decide)).mpr
      ⟨⟨.v5 0, "phone", none, 0, 0, none⟩, by decide, rfl⟩

/-- A server on which the node of a passkey registration ended up with another account: alice
starts a registration from a known node, renames her account, and finishes it from a new node. The
finished registration opens a second account under the old name. -/
def renamedMidway : Db :=
  serve Webauthn.trustingSite
    [.service (.registerUser ⟨"alice", none, none⟩),
      .service (.addPeerNode 0 "phone" none),
      .p2pRegisterStart "app" "alice" none (some "phone"),
      .service (.updateUsername 0 "alicia"),
      .p2pRegisterFinish "app" (.v4 0) "key" (some "tablet")]
    Db.empty

def secondAlice : User := ⟨1, "alice", .member, none, 0, 0, none, none⟩

/-- There the removal answers that it is done, and the node still leads to the account. -/
theorem removed_node_still_resolves :
    ((UserRepository.findUserByNodeId "tablet").run renamedMidway).1 = .ok (some secondAlice) ∧
      ((UserService.removePeerNode 1 "tablet").run renamedMidway).1 =
        .ok ⟨"Peer node removed", ()⟩ ∧
      ((UserRepository.findUserByNodeId "tablet").run
        ((UserService.removePeerNode 1 "tablet").run renamedMidway).2).1 =
          .ok (some secondAlice) := by
  decide

end Tomb.Grimoire
