import Tomb.Haruspex.Acl.Evaluator
import Tomb.Haruspex.Stores
import Tomb.Lib.Text

/-! The hub's admin operations: who may administer it is a role on the instance, which a promotion
grants and a demotion revokes. -/
namespace Tomb.Haruspex
open Tomb.Lib Acl

def Acl.Resource.instance : Resource := ⟨"instance", ""⟩

def Caller.isAdmin (caller : Caller) : Bool := decide (Role.admin ≤ caller.role)

def Acl.AclStore.register (acl : AclStore) (identityId : Uuid) : AclStore :=
  { acl with
    identities := identityId :: acl.identities
    referenced := fun membership row =>
      ⟨(acl.referenced membership row).1, List.mem_cons_of_mem _ (acl.referenced membership row).2⟩ }

/-- The stores that the admin operations work on, and the identities whose access was announced as
changed. -/
structure Hub where
  stores : Stores
  acl : AclStore
  accessChanges : List Uuid

structure HubAdmin where
  localNodeId : String
  accessChanged : Bool

inductive AdminRequest where
  | promoteAdmin (nodeId : String)
  | demoteAdmin (nodeId : String)

namespace AdminRequest

def nodeId : AdminRequest → String
  | promoteAdmin nodeId => nodeId
  | demoteAdmin nodeId => nodeId

def makesAdmin : AdminRequest → Bool
  | promoteAdmin _ => true
  | demoteAdmin _ => false

end AdminRequest

inductive HubAdminResponse where
  | adminChanged (nodeId : String) (isAdmin : Bool)
  | notAdmin
  | error (message : String)
  deriving DecidableEq

namespace Hub

def resolveOrCreateIdentity (nodeId : String) (now : Int) (hub : Hub) : Option Uuid × Hub :=
  match hub.stores.resolveDevice nodeId with
  | some device => (some device.identityId, hub)
  | none =>
    let (id, stores) := hub.stores.freshId
    match stores.upsertIdentity ⟨id, none, now, none, none⟩ with
    | (.error _, stores) => (none, { hub with stores := stores })
    | (.ok created, stores) =>
      let acl := hub.acl.register created.id
      match stores.addDevice ⟨created.id, nodeId, none, now, now, none⟩ with
      | (.error _, stores) => (none, { hub with stores := stores, acl := acl })
      | (.ok (), stores) => (some created.id, { hub with stores := stores, acl := acl })

def isAdminNode (hub : Hub) (nodeId : String) (now : Int) : Bool :=
  match hub.stores.resolveDevice nodeId with
  | none => false
  | some device =>
    match hub.acl.effectiveRole device.identityId .instance [] now none with
    | some role => decide (Role.admin ≤ role)
    | none => false

end Hub

namespace HubAdmin

@[grind =]
def setAdmin (admin : HubAdmin) (nodeId : String) (makeAdmin : Bool) (now : Int) (hub : Hub) :
    HubAdminResponse × Hub :=
  let nodeId := Text.trim nodeId
  if nodeId = "" then (.error "node_id cannot be empty", hub)
  else if makeAdmin then
    match hub.resolveOrCreateIdentity nodeId now with
    | (none, hub) => (.error "failed to resolve identity for node id", hub)
    | (some identityId, hub) =>
      (.adminChanged nodeId makeAdmin, { hub with
        acl := (hub.acl.grant
          ⟨.identity identityId, .instance, .admin, admin.localNodeId, now, none⟩).2 })
  else
    match hub.stores.resolveDevice nodeId with
    | none => (.adminChanged nodeId false, hub)
    | some device =>
      (.adminChanged nodeId makeAdmin, { hub with
        acl := hub.acl.revoke (.identity device.identityId) .instance
        accessChanges := if admin.accessChanged then hub.accessChanges ++ [device.identityId]
          else hub.accessChanges })

def handle (admin : HubAdmin) (caller : Caller) (request : AdminRequest) (now : Int) (hub : Hub) :
    HubAdminResponse × Hub :=
  if !caller.isAdmin then (.notAdmin, hub)
  else
    match request with
    | .promoteAdmin nodeId => admin.setAdmin nodeId true now hub
    | .demoteAdmin nodeId => admin.setAdmin nodeId false now hub

end HubAdmin

namespace Hub

section Admins

variable {hub : Hub} {nodeId : String} {now : Int}

/-- A grant that makes an identity an admin of the instance now. -/
def MakesAdmin (acl : AclStore) (identityId : Uuid) (now : Int) (grant : RoleGrant) : Prop :=
  grant.resource = .instance ∧ grant.expired now = false ∧ acl.Covers identityId grant.subject ∧
    Role.admin ≤ grant.role

theorem isAdminNode_iff : hub.isAdminNode nodeId now = true ↔
    ∃ device, hub.stores.resolveDevice nodeId = some device ∧
      ∃ grant ∈ hub.acl.grants, MakesAdmin hub.acl device.identityId now grant := by
  unfold isAdminNode
  cases registered : hub.stores.resolveDevice nodeId with
  | none => exact ⟨fun never => (nomatch never), fun ⟨_, impossible, _⟩ => (nomatch impossible)⟩
  | some device =>
    have greatest := hub.acl.effectiveRole_isMaximum device.identityId .instance [] now none
    simp only [Option.bind_none, List.not_mem_nil, Set.iUnion_of_empty, Set.iUnion_empty,
      Set.union_empty] at greatest
    dsimp only
    constructor
    · intro admin
      refine ⟨device, rfl, ?_⟩
      cases role : hub.acl.effectiveRole device.identityId .instance [] now none with
      | none =>
        rw [role] at admin
        cases admin
      | some best =>
        rw [role] at admin greatest
        obtain ⟨⟨grant, stored, on, live, covers, rfl⟩, -⟩ := greatest
        exact ⟨grant, stored, on, live, covers, of_decide_eq_true admin⟩
    · rintro ⟨_, found, grant, stored, on, live, covers, high⟩
      cases found
      have held : grant.role ∈ hub.acl.rolesOn device.identityId .instance now :=
        ⟨grant, stored, on, live, covers, rfl⟩
      cases role : hub.acl.effectiveRole device.identityId .instance [] now none with
      | none =>
        rw [role] at greatest
        have nothing : hub.acl.rolesOn device.identityId .instance now = ∅ := greatest
        rw [nothing] at held
        cases held
      | some best =>
        rw [role] at greatest
        exact decide_eq_true (le_trans high (greatest.2 held))

def identityOf (hub : Hub) (nodeId : String) : Uuid :=
  (hub.stores.resolveDevice nodeId).elim hub.stores.freshId.1 DeviceNode.identityId

theorem upsertIdentity_unnamed (s : Stores) (identity : Identity) (unnamed : identity.username = none) :
    ∃ s', s.upsertIdentity identity = (.ok (s.upserted identity), s') ∧ s'.devices = s.devices ∧
      s'.identities.get identity.id = some (s.upserted identity) := by
  have free : s.usernameTaken identity.id identity.username = false := by
    rw [unnamed]
    rfl
  refine ⟨{ s with identities := s.identities.upsert (s.upserted identity) }, ?_, rfl, ?_⟩
  · rw [Stores.upsertIdentity, free]
    rfl
  · exact (Table.get_upsert s.identities (s.upserted identity) _).trans (if_pos rfl)

theorem addDevice_new (s : Stores) (device : DeviceNode)
    (absent : s.devices.get device.nodeId = none)
    (owner : (s.identities.get device.identityId).isNone = false) :
    s.addDevice device = (.ok (), { s with devices := s.devices.upsert device }) := by
  rw [Stores.addDevice, absent]
  simp only [owner, Bool.false_eq_true, if_false]

theorem resolveOrCreateIdentity_spec (nodeId : String) (now : Int) (hub : Hub) :
    ∃ hub', hub.resolveOrCreateIdentity nodeId now = (some (hub.identityOf nodeId), hub') ∧
      (∃ device, hub'.stores.resolveDevice nodeId = some device ∧
        device.identityId = hub.identityOf nodeId) ∧
      (∀ other, other ≠ nodeId →
        hub'.stores.resolveDevice other = hub.stores.resolveDevice other) ∧
      hub'.acl.grants = hub.acl.grants ∧ hub'.acl.memberships = hub.acl.memberships := by
  unfold resolveOrCreateIdentity identityOf
  cases registered : hub.stores.resolveDevice nodeId with
  | some device =>
    exact ⟨hub, rfl, ⟨device, registered, rfl⟩, fun _ _ => rfl, rfl, rfl⟩
  | none =>
    obtain ⟨named, upserted, devices, stored⟩ := upsertIdentity_unnamed hub.stores.freshId.2
      ⟨hub.stores.freshId.1, none, now, none, none⟩ rfl
    have linked := addDevice_new named ⟨hub.stores.freshId.1, nodeId, none, now, now, none⟩
      ((congrArg (Table.get · nodeId) devices).trans registered) (by rw [stored]; rfl)
    have same (s : Stores) (identity : Identity) : (s.upserted identity).id = identity.id := rfl
    simp only [upserted, same, linked, Option.elim_none]
    refine ⟨_, rfl, ⟨_, (Table.get_upsert _ _ _).trans (if_pos rfl), rfl⟩, fun other differs => ?_,
      rfl, rfl⟩
    have kept := (Table.get_upsert named.devices ⟨hub.stores.freshId.1, nodeId, none, now, now, none⟩
      other).trans (if_neg differs)
    exact kept.trans (congrArg (Table.get · other) devices)

theorem isAdminNode_granted (hub changed : Hub) {granted : RoleGrant} {identityId : Uuid}
    (subject : granted.subject = .identity identityId) (on : granted.resource = .instance)
    (unlimited : granted.expiresAt = none) (high : Role.admin ≤ granted.role)
    (grants : changed.acl.grants = hub.acl.grants.upsert granted)
    (memberships : changed.acl.memberships = hub.acl.memberships) :
    changed.isAdminNode nodeId now = true ↔
      ∃ device, changed.stores.resolveDevice nodeId = some device ∧
        (device.identityId = identityId ∨
          ∃ grant ∈ hub.acl.grants, MakesAdmin hub.acl device.identityId now grant) := by
  have covers (id : Uuid) (subject : Subject) :
      changed.acl.Covers id subject ↔ hub.acl.Covers id subject := by
    unfold AclStore.Covers AclStore.IsMember
    rw [memberships]
  rw [isAdminNode_iff, grants]
  refine exists_congr fun device => and_congr_right fun _ => ?_
  constructor
  · rintro ⟨grant, stored, resource, live, reaches, role⟩
    obtain rfl | ⟨old, -⟩ := (Table.mem_upsert _ _ _).mp stored
    · rw [subject] at reaches
      exact .inl (Eq.symm reaches)
    · exact .inr ⟨grant, old, resource, live, (covers _ _).mp reaches, role⟩
  · have makes (same : device.identityId = identityId) :
        MakesAdmin changed.acl device.identityId now granted := by
      refine ⟨on, ?_, ?_, high⟩
      · rw [RoleGrant.expired, unlimited]
      · rw [subject]
        exact same.symm
    rintro (same | ⟨grant, old, resource, live, reaches, role⟩)
    · exact ⟨granted, (Table.mem_upsert _ _ _).mpr (.inl rfl), makes same⟩
    · by_cases key : RoleGrant.key grant = RoleGrant.key granted
      · have replaced : grant.subject = .identity identityId := (Prod.ext_iff.mp key).1.trans subject
        rw [replaced] at reaches
        exact ⟨granted, (Table.mem_upsert _ _ _).mpr (.inl rfl), makes (Eq.symm reaches)⟩
      · exact ⟨grant, (Table.mem_upsert _ _ _).mpr (.inr ⟨old, key⟩), resource, live,
          (covers _ _).mpr reaches, role⟩

theorem isAdminNode_revoked (hub changed : Hub) (subject : Subject)
    (stores : changed.stores = hub.stores)
    (grants : changed.acl.grants = (hub.acl.revoke subject .instance).grants)
    (memberships : changed.acl.memberships = hub.acl.memberships) :
    changed.isAdminNode nodeId now = true ↔
      ∃ device, hub.stores.resolveDevice nodeId = some device ∧
        ∃ grant ∈ hub.acl.grants, MakesAdmin hub.acl device.identityId now grant ∧
          grant.subject ≠ subject := by
  have covers (id : Uuid) (subject : Subject) :
      changed.acl.Covers id subject ↔ hub.acl.Covers id subject := by
    unfold AclStore.Covers AclStore.IsMember
    rw [memberships]
  rw [isAdminNode_iff, stores, grants]
  refine exists_congr fun device => and_congr_right fun _ => exists_congr fun grant => ?_
  rw [AclStore.revoke, Table.mem_deleteWhere]
  constructor
  · rintro ⟨⟨stored, kept⟩, resource, live, reaches, role⟩
    refine ⟨stored, ⟨resource, live, (covers _ _).mp reaches, role⟩, fun revoked => ?_⟩
    rw [decide_eq_true revoked, decide_eq_true resource] at kept
    cases kept
  · rintro ⟨stored, ⟨resource, live, reaches, role⟩, other⟩
    refine ⟨⟨stored, ?_⟩, resource, live, (covers _ _).mpr reaches, role⟩
    rw [decide_eq_false other, Bool.false_and]

end Admins

/-- What the requests about admins are right for. A padded node id is another node than the one that
the operation changes. -/
def Decisive (hub : Hub) (now : Int) : AdminRequest → Prop
  | .promoteAdmin nodeId => Text.trim nodeId = nodeId ∨
    ∃ device, hub.stores.resolveDevice nodeId = some device ∧
      (device.identityId = hub.identityOf (Text.trim nodeId) ∨ hub.isAdminNode nodeId now = true)
  | .demoteAdmin nodeId => ∀ device, hub.stores.resolveDevice nodeId = some device →
    ∀ grant ∈ hub.acl.grants, MakesAdmin hub.acl device.identityId now grant →
      ∃ target, hub.stores.resolveDevice (Text.trim nodeId) = some target ∧
        grant.subject = .identity target.identityId

end Hub

namespace HubAdmin

variable {admin : HubAdmin} {caller : Caller} {request : AdminRequest} {now : Int} {hub : Hub}
  {nodeId : String}

/-- What the operation answers of a node is so when it is done. -/
def Truthful (admin : HubAdmin) (caller : Caller) (request : AdminRequest) (now : Int) (hub : Hub) :
    Prop :=
  ∀ nodeId isAdmin, (admin.handle caller request now hub).1 = .adminChanged nodeId isAdmin →
    (admin.handle caller request now hub).2.isAdminNode request.nodeId now = isAdmin

theorem promoted_iff (admin : HubAdmin) (now : Int) (hub : Hub) (named : Text.trim nodeId ≠ "") :
    ∃ hub', admin.setAdmin nodeId true now hub = (.adminChanged (Text.trim nodeId) true, hub') ∧
      (hub'.isAdminNode nodeId now = true ↔ hub.Decisive now (.promoteAdmin nodeId)) := by
  obtain ⟨created, made, ⟨own, registered, same⟩, others, grants, memberships⟩ :=
    Hub.resolveOrCreateIdentity_spec (Text.trim nodeId) now hub
  unfold setAdmin
  simp only [named, if_false, if_true, made]
  let granted : RoleGrant := ⟨.identity (hub.identityOf (Text.trim nodeId)), .instance, .admin,
    admin.localNodeId, now, none⟩
  let promoted : Hub := { created with acl := (created.acl.grant granted).2 }
  have upserted : promoted.acl.grants = hub.acl.grants.upsert granted :=
    congrArg (Table.upsert · granted) grants
  refine ⟨promoted, rfl, ?_⟩
  rw [Hub.isAdminNode_granted hub promoted rfl rfl rfl (le_refl Role.admin) upserted memberships]
  by_cases trimmed : Text.trim nodeId = nodeId
  · rw [trimmed] at registered same
    exact ⟨fun _ => .inl trimmed, fun _ => ⟨own, registered, .inl (same.trans (by rw [trimmed]))⟩⟩
  · have lookup := others nodeId (Ne.symm trimmed)
    constructor
    · rintro ⟨device, found, reason⟩
      have known : hub.stores.resolveDevice nodeId = some device := lookup.symm.trans found
      exact .inr ⟨device, known, reason.imp id fun makes => Hub.isAdminNode_iff.mpr
        ⟨device, known, makes⟩⟩
    · rintro (impossible | ⟨device, known, reason⟩)
      · exact absurd impossible trimmed
      · refine ⟨device, lookup.trans known, reason.imp id fun was => ?_⟩
        obtain ⟨other, found, makes⟩ := Hub.isAdminNode_iff.mp was
        rw [known] at found
        cases found
        exact makes

theorem demoted_iff (admin : HubAdmin) (now : Int) (hub : Hub) (named : Text.trim nodeId ≠ "") :
    ∃ hub', admin.setAdmin nodeId false now hub = (.adminChanged (Text.trim nodeId) false, hub') ∧
      (hub'.isAdminNode nodeId now = false ↔ hub.Decisive now (.demoteAdmin nodeId)) := by
  unfold setAdmin
  simp only [named, if_false, Bool.false_eq_true]
  cases registered : hub.stores.resolveDevice (Text.trim nodeId) with
  | none =>
    refine ⟨hub, rfl, ?_⟩
    rw [← Bool.not_eq_true, Hub.isAdminNode_iff]
    constructor
    · intro never device known grant stored makes
      exact absurd ⟨device, known, grant, stored, makes⟩ never
    · rintro nobody ⟨device, known, grant, stored, makes⟩
      obtain ⟨target, found, -⟩ := nobody device known grant stored makes
      rw [registered] at found
      cases found
  | some target =>
    let demoted : Hub := { hub with
      acl := hub.acl.revoke (.identity target.identityId) .instance
      accessChanges := if admin.accessChanged then hub.accessChanges ++ [target.identityId]
        else hub.accessChanges }
    refine ⟨demoted, rfl, ?_⟩
    rw [← Bool.not_eq_true, Hub.isAdminNode_revoked hub demoted _ rfl rfl rfl]
    constructor
    · intro never device known grant stored makes
      refine ⟨target, registered, ?_⟩
      by_contra other
      exact never ⟨device, known, grant, stored, makes, other⟩
    · rintro direct ⟨device, known, grant, stored, makes, other⟩
      obtain ⟨found, resolved, subject⟩ := direct device known grant stored makes
      rw [registered] at resolved
      cases resolved
      exact other subject

theorem handle_eq (privileged : caller.isAdmin = true) :
    admin.handle caller request now hub =
      admin.setAdmin request.nodeId request.makesAdmin now hub := by
  unfold handle
  rw [privileged, if_neg (by decide)]
  cases request with
  | promoteAdmin node => rfl
  | demoteAdmin node => rfl

theorem truthful_iff_of_answer {isAdmin : Bool} {hub' : Hub}
    (answer : admin.handle caller request now hub = (.adminChanged nodeId isAdmin, hub')) :
    admin.Truthful caller request now hub ↔ hub'.isAdminNode request.nodeId now = isAdmin := by
  unfold Truthful
  rw [answer]
  constructor
  · exact fun truthful => truthful _ _ rfl
  · intro right _ _ same
    cases same
    exact right

/-- The answers about admins are true exactly where the direct grant of the node's identity decides
whether it is an admin. -/
theorem truthful_iff : admin.Truthful caller request now hub ↔
    (caller.isAdmin = true → Text.trim request.nodeId ≠ "" → hub.Decisive now request) := by
  cases privileged : caller.isAdmin with
  | false =>
    refine ⟨fun _ never => (nomatch never), fun _ nodeId isAdmin answered => ?_⟩
    unfold handle at answered
    rw [privileged] at answered
    cases answered
  | true =>
    by_cases named : Text.trim request.nodeId = ""
    · refine ⟨fun _ _ given => absurd named given, fun _ nodeId isAdmin answered => ?_⟩
      rw [handle_eq privileged, setAdmin, if_pos named] at answered
      cases answered
    · have decides : admin.Truthful caller request now hub ↔ hub.Decisive now request := by
        cases request with
        | promoteAdmin node =>
          obtain ⟨hub', done, lasts⟩ := promoted_iff admin now hub named
          exact (truthful_iff_of_answer ((handle_eq privileged).trans done)).trans lasts
        | demoteAdmin node =>
          obtain ⟨hub', done, lasts⟩ := demoted_iff admin now hub named
          exact (truthful_iff_of_answer ((handle_eq privileged).trans done)).trans lasts
      exact decides.trans ⟨fun decisive _ _ => decisive, fun decisive => decisive rfl named⟩

def openHub : Hub where
  stores := ((Stores.empty.upsertIdentity ⟨.v4 0, none, 0, none, none⟩).2.addDevice
    ⟨.v4 0, "node", none, 0, 0, none⟩).2
  acl := ((AclStore.empty [.v4 0]).grant ⟨.everyone, .instance, .admin, "hub", 0, none⟩).2
  accessChanges := []

/-- The node is answered to be no admin, and is one. -/
theorem demoted_admin_stays :
    ¬ HubAdmin.Truthful ⟨"hub", true⟩ ⟨none, "hub", .root⟩ (.demoteAdmin "node") 1 openHub := by
  intro truthful
  have answered : (HubAdmin.handle ⟨"hub", true⟩ ⟨none, "hub", .root⟩ (.demoteAdmin "node") 1
      openHub).1 = .adminChanged "node" false := by decide
  have stays : (HubAdmin.handle ⟨"hub", true⟩ ⟨none, "hub", .root⟩ (.demoteAdmin "node") 1
      openHub).2.isAdminNode "node" 1 = true := by decide
  have answer := truthful "node" false answered
  rw [show AdminRequest.nodeId (.demoteAdmin "node") = "node" from rfl, stays] at answer
  cases answer

end HubAdmin

end Tomb.Haruspex
