import Tomb.Haruspex.Acl.Evaluator

/-! What the grant and group stores are for: a policy says which groups exist, who is a member of
them now, and which role each subject holds on each resource until when. The stores refine it,
operation by operation, and the evaluator answers what the policy says. -/
namespace Tomb.Haruspex.Acl
open Tomb.Lib

inductive Op where
  | grant (grant : RoleGrant)
  | revoke (subject : Subject) (resource : Resource)
  | createGroup (group : Group)
  | deleteGroup (groupId : Uuid)
  | addMember (groupId identityId : Uuid) (addedAt : Int)
  | removeMember (groupId identityId : Uuid)

namespace AclStore

def apply (store : AclStore) : Op → AclStore
  | .grant grant => (store.grant grant).2
  | .revoke subject resource => store.revoke subject resource
  | .createGroup group => (store.createGroup group).2
  | .deleteGroup groupId => store.deleteGroup groupId
  | .addMember groupId identityId addedAt => (store.addMember groupId identityId addedAt).2
  | .removeMember groupId identityId => store.removeMember groupId identityId

def run (store : AclStore) (ops : List Op) : AclStore := ops.foldl apply store

end AclStore

@[ext] structure Policy where
  (identities groups : Set Uuid)
  members : Uuid → Set Uuid
  granted : Subject → Resource → Option (Role × Option Int)

namespace Policy

/-- A later grant replaces the earlier one, a revocation clears it, and a deleted group keeps no
members; only an existing identity joins, and only an existing group. -/
@[grind =] def apply (policy : Policy) : Op → Policy
  | .grant grant => { policy with
      granted := fun subject resource =>
        if subject = grant.subject ∧ resource = grant.resource then
          some (grant.role, grant.expiresAt)
        else policy.granted subject resource }
  | .revoke revoked on => { policy with
      granted := fun subject resource =>
        if subject = revoked ∧ resource = on then none else policy.granted subject resource }
  | .createGroup group => { policy with groups := insert group.id policy.groups }
  | .deleteGroup groupId => { policy with
      groups := policy.groups \ {groupId}
      members := fun group => {identity | identity ∈ policy.members group ∧ group ≠ groupId} }
  | .addMember groupId identityId _ => { policy with
      members := fun group => {identity | identity ∈ policy.members group ∨
        (group = groupId ∧ identity = identityId ∧ groupId ∈ policy.groups ∧
          identityId ∈ policy.identities)} }
  | .removeMember groupId identityId => { policy with
      members := fun group => {identity | identity ∈ policy.members group ∧
        ¬ (group = groupId ∧ identity = identityId)} }

def run (policy : Policy) (ops : List Op) : Policy := ops.foldl apply policy

/-- A subject reaches an identity when it is the identity, a group with that member, or all. -/
def Reaches (policy : Policy) (identityId : Uuid) : Subject → Prop
  | .identity id => id = identityId
  | .group groupId => identityId ∈ policy.members groupId
  | .everyone => True

@[grind =]
def rolesOn (policy : Policy) (identityId : Uuid) (resource : Resource) (now : Int) : Set Role :=
  {role | ∃ subject expiresAt, policy.granted subject resource = some (role, expiresAt) ∧
    policy.Reaches identityId subject ∧ ∀ t, expiresAt = some t → now < t}

/-- The roles an identity has on a resource: the resolver's answer in place of the grants on the
resource itself if it gives one, and what the ancestors' grants give. -/
def roles (policy : Policy) (identityId : Uuid) (resource : Resource)
    (ancestors : List Resource) (now : Int) (resolver : Option RoleResolver) : Set Role :=
  (match resolver.bind (· identityId resource) with
    | some role => {role}
    | none => policy.rolesOn identityId resource now) ∪
      ⋃ ancestor ∈ ancestors, policy.rolesOn identityId ancestor now

end Policy

namespace AclStore

@[grind =] def policy (store : AclStore) : Policy where
  identities := {id | id ∈ store.identities}
  groups := {id | ∃ group ∈ store.groups, group.id = id}
  members := fun groupId => {identityId | store.IsMember groupId identityId}
  granted := fun subject resource =>
    (store.grants.get (subject, resource)).map fun grant => (grant.role, grant.expiresAt)

theorem policy_granted (store : AclStore) (subject : Subject) (resource : Resource) (role : Role)
    (expiresAt : Option Int) :
    store.policy.granted subject resource = some (role, expiresAt) ↔
      ∃ grant ∈ store.grants, grant.subject = subject ∧ grant.resource = resource ∧
        grant.role = role ∧ grant.expiresAt = expiresAt := by
  simp only [policy, Option.map_eq_some_iff, Table.get_eq_some, RoleGrant.key, Prod.mk.injEq,
    and_assoc]

theorem policy_grant (store : AclStore) (grant : RoleGrant) :
    (store.grant grant).2.policy = store.policy.apply (.grant grant) := by
  refine Policy.ext rfl rfl rfl ?_
  funext subject resource
  simp only [AclStore.grant, policy, Policy.apply, Table.get_upsert, RoleGrant.key, Prod.mk.injEq]
  split <;> rfl

theorem policy_revoke (store : AclStore) (revoked : Subject) (on : Resource) :
    (store.revoke revoked on).policy = store.policy.apply (.revoke revoked on) := by
  refine Policy.ext rfl rfl rfl ?_
  funext subject resource
  simp only [AclStore.revoke, policy, Policy.apply]
  split
  · rename_i same
    rw [Table.get_deleteWhere_of_all]
    · rfl
    · intro row key
      obtain ⟨rfl, rfl⟩ := Prod.mk.inj key
      simp [same]
  · rename_i other
    rw [Table.get_deleteWhere_of_none]
    intro row key
    obtain ⟨rfl, rfl⟩ := Prod.mk.inj key
    simpa using other

theorem policy_createGroup (store : AclStore) (group : Group) :
    (store.createGroup group).2.policy = store.policy.apply (.createGroup group) := by
  unfold createGroup
  split
  · rename_i groups inserted
    refine Policy.ext rfl ?_ rfl rfl
    ext id
    simp only [policy, Policy.apply, Table.insert_eq_some _ _ _ inserted, Set.mem_ofPred_eq,
      Set.mem_insert_iff]
    constructor
    · rintro ⟨row, present | rfl, rfl⟩
      · exact .inr ⟨row, present, rfl⟩
      · exact .inl rfl
    · rintro (rfl | ⟨row, present, rfl⟩)
      · exact ⟨group, .inr rfl, rfl⟩
      · exact ⟨row, .inl present, rfl⟩
  · rename_i taken
    obtain ⟨old, present, same⟩ := (Table.insert_eq_none _ _).mp taken
    refine Policy.ext rfl (Set.insert_eq_of_mem ?_).symm rfl rfl
    exact ⟨old, present, same⟩

theorem policy_deleteGroup (store : AclStore) (groupId : Uuid) :
    (store.deleteGroup groupId).policy = store.policy.apply (.deleteGroup groupId) := by
  refine Policy.ext rfl ?_ ?_ rfl
  · ext id
    simp only [deleteGroup, policy, Policy.apply, Table.mem_deleteWhere, decide_eq_false_iff_not,
      Set.mem_ofPred_eq, Set.mem_sdiff, Set.mem_singleton_iff]
    constructor
    · rintro ⟨group, ⟨present, other⟩, rfl⟩
      exact ⟨⟨group, present, rfl⟩, other⟩
    · rintro ⟨⟨group, present, rfl⟩, other⟩
      exact ⟨group, ⟨present, other⟩, rfl⟩
  · funext group
    ext identity
    simp only [deleteGroup, policy, Policy.apply, IsMember, Table.mem_deleteWhere,
      decide_eq_false_iff_not, Set.mem_ofPred_eq]
    constructor
    · rintro ⟨row, ⟨present, other⟩, rfl, rfl⟩
      exact ⟨⟨row, present, rfl, rfl⟩, other⟩
    · rintro ⟨⟨row, present, rfl, rfl⟩, other⟩
      exact ⟨row, ⟨present, other⟩, rfl, rfl⟩

theorem policy_addMember (store : AclStore) (groupId identityId : Uuid) (addedAt : Int) :
    (store.addMember groupId identityId addedAt).2.policy =
      store.policy.apply (.addMember groupId identityId addedAt) := by
  unfold addMember
  split
  · rename_i parents
    refine Policy.ext rfl rfl ?_ rfl
    funext group
    ext identity
    simp only [policy, Policy.apply, IsMember, Table.mem_upsert, Membership.key, ne_eq,
      Prod.mk.injEq, Set.mem_ofPred_eq]
    constructor
    · rintro ⟨row, rfl | ⟨present, other⟩, rfl, rfl⟩
      · exact .inr ⟨rfl, rfl, parents⟩
      · exact .inl ⟨row, present, rfl, rfl⟩
    · rintro (⟨row, present, rfl, rfl⟩ | ⟨rfl, rfl, _⟩)
      · by_cases same : row.groupId = groupId ∧ row.identityId = identityId
        · exact ⟨⟨groupId, identityId, addedAt⟩, .inl rfl, same.1.symm, same.2.symm⟩
        · exact ⟨row, .inr ⟨present, same⟩, rfl, rfl⟩
      · exact ⟨_, .inl rfl, rfl, rfl⟩
  · rename_i orphan
    refine Policy.ext rfl rfl ?_ rfl
    funext group
    ext identity
    simp only [policy, Policy.apply, Set.mem_ofPred_eq]
    constructor
    · exact .inl
    · rintro (member | ⟨_, _, parents⟩)
      · exact member
      · exact absurd parents orphan

theorem policy_removeMember (store : AclStore) (groupId identityId : Uuid) :
    (store.removeMember groupId identityId).policy =
      store.policy.apply (.removeMember groupId identityId) := by
  refine Policy.ext rfl rfl ?_ rfl
  funext group
  ext identity
  simp only [removeMember, policy, Policy.apply, IsMember, Table.mem_deleteWhere,
    Set.mem_ofPred_eq, Bool.and_eq_false_iff, decide_eq_false_iff_not, ← not_and_or]
  constructor
  · rintro ⟨row, ⟨present, other⟩, rfl, rfl⟩
    exact ⟨⟨row, present, rfl, rfl⟩, other⟩
  · rintro ⟨⟨row, present, rfl, rfl⟩, other⟩
    exact ⟨row, ⟨present, other⟩, rfl, rfl⟩

theorem policy_apply (store : AclStore) (op : Op) :
    (store.apply op).policy = store.policy.apply op := by
  cases op with
  | grant grant => exact store.policy_grant grant
  | revoke subject resource => exact store.policy_revoke subject resource
  | createGroup group => exact store.policy_createGroup group
  | deleteGroup groupId => exact store.policy_deleteGroup groupId
  | addMember groupId identityId addedAt =>
    exact store.policy_addMember groupId identityId addedAt
  | removeMember groupId identityId => exact store.policy_removeMember groupId identityId

theorem policy_run (store : AclStore) (ops : List Op) :
    (store.run ops).policy = store.policy.run ops := by
  induction ops generalizing store with
  | nil => rfl
  | cons op rest ih =>
    rw [run, List.foldl_cons, ← run, ih, policy_apply]
    rfl

theorem rolesOn_eq_policy (store : AclStore) (identityId : Uuid) (resource : Resource)
    (now : Int) :
    store.rolesOn identityId resource now = store.policy.rolesOn identityId resource now := by
  have covers (subject : Subject) : store.Covers identityId subject ↔
      store.policy.Reaches identityId subject := by
    cases subject <;> exact Iff.rfl
  ext role
  simp only [rolesOn, Policy.rolesOn, policy_granted, RoleGrant.expired_eq_false, covers,
    Set.mem_ofPred_eq]
  constructor
  · rintro ⟨grant, stored, rfl, live, reached, rfl⟩
    exact ⟨grant.subject, grant.expiresAt, ⟨grant, stored, rfl, rfl, rfl, rfl⟩, reached, live⟩
  · rintro ⟨subject, expiresAt, ⟨grant, stored, rfl, rfl, rfl, rfl⟩, reached, live⟩
    exact ⟨grant, stored, rfl, live, reached, rfl⟩

/-- After any run of grant and group operations from any stores, the evaluator's answers are the
maxima that the policy defines: the stored rows neither widen nor narrow anyone's access. -/
theorem effective_roles_after_run (store : AclStore) (ops : List Op) (identityId : Uuid)
    (now : Int) (resolver : Option RoleResolver) :
    (∀ resource ancestors,
      IsMaximum ((store.run ops).effectiveRole identityId resource ancestors now resolver)
        ((store.policy.run ops).roles identityId resource ancestors now resolver)) ∧
    ∀ referencingDocs,
      IsMaximum ((store.run ops).effectiveBlobRole identityId referencingDocs now resolver)
        {role | ∃ doc ∈ referencingDocs,
          (store.run ops).effectiveRole identityId doc.1 doc.2 now resolver = some role} := by
  refine ⟨fun resource ancestors => ?_, fun referencingDocs =>
    (store.run ops).effectiveBlobRole_isMaximum identityId referencingDocs now resolver⟩
  have found := (store.run ops).effectiveRole_isMaximum identityId resource ancestors now resolver
  simp only [rolesOn_eq_policy, policy_run] at found
  exact found

end AclStore

end Tomb.Haruspex.Acl
