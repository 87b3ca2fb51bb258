import Tomb.Haruspex.Basic
import Tomb.Lib.Table

/-! The sqlite grant and group stores: role grants, groups and live memberships, with the
foreign keys that tie a membership to its group and to its identity. -/
namespace Tomb.Haruspex.Acl
open Tomb.Lib

inductive Subject where
  | identity (identityId : Uuid)
  | group (groupId : Uuid)
  | everyone
  deriving DecidableEq

structure Resource where
  (kind id : String)
  deriving DecidableEq

structure RoleGrant where
  subject : Subject
  resource : Resource
  role : Role
  grantedBy : String
  grantedAt : Int
  expiresAt : Option Int

structure Group where
  id : Uuid
  name : String
  color : Option String
  createdAt : Int

structure Membership where
  (groupId identityId : Uuid)
  addedAt : Int

@[grind =]
def RoleGrant.key (grant : RoleGrant) : Subject × Resource := (grant.subject, grant.resource)

def Membership.key (membership : Membership) : Uuid × Uuid :=
  (membership.groupId, membership.identityId)

/-- The tables of the two stores. The identities are another store's rows; only the foreign key
reads them here. -/
structure AclStore where
  identities : List Uuid
  groups : Table Group.id
  memberships : Table Membership.key
  grants : Table RoleGrant.key
  referenced : ∀ membership ∈ memberships,
    (∃ group ∈ groups, group.id = membership.groupId) ∧ membership.identityId ∈ identities

namespace AclStore

def empty (identities : List Uuid) : AclStore where
  identities := identities
  groups := ∅
  memberships := ∅
  grants := ∅
  referenced := fun _ row => absurd row (Table.not_mem_empty _)

def grant (store : AclStore) (grant : RoleGrant) : RoleGrant × AclStore :=
  (grant, { store with grants := store.grants.upsert grant })

def revoke (store : AclStore) (subject : Subject) (resource : Resource) : AclStore :=
  { store with
    grants := store.grants.deleteWhere fun row =>
      decide (row.subject = subject) && decide (row.resource = resource) }

def grantsFor (store : AclStore) (subject : Subject) : List RoleGrant :=
  store.grants.select fun row => decide (row.subject = subject)

def grantsOn (store : AclStore) (resource : Resource) : List RoleGrant :=
  store.grants.select fun row => decide (row.resource = resource)

def createGroup (store : AclStore) (group : Group) : Except StoreError Group × AclStore :=
  match inserted : store.groups.insert group with
  | some groups => (.ok group, { store with
      groups := groups
      referenced := fun membership row => by
        obtain ⟨⟨owner, present, same⟩, identity⟩ := store.referenced membership row
        exact ⟨⟨owner, (Table.insert_eq_some _ _ _ inserted owner).mpr (.inl present), same⟩,
          identity⟩ })
  | none => (.error (.database "UNIQUE constraint failed: groupz.id"), store)

def getGroup (store : AclStore) (groupId : Uuid) : Option Group :=
  (store.groups.select fun row => decide (row.id = groupId)).head?

def deleteGroup (store : AclStore) (groupId : Uuid) : AclStore :=
  { store with
    groups := store.groups.deleteWhere fun row => decide (row.id = groupId)
    memberships := store.memberships.deleteWhere fun row => decide (row.groupId = groupId)
    referenced := fun membership row => by
      rw [Table.mem_deleteWhere, decide_eq_false_iff_not] at row
      obtain ⟨⟨owner, present, same⟩, identity⟩ := store.referenced membership row.1
      refine ⟨⟨owner, ?_, same⟩, identity⟩
      rw [Table.mem_deleteWhere, decide_eq_false_iff_not, same]
      exact ⟨present, row.2⟩ }

def addMember (store : AclStore) (groupId identityId : Uuid) (addedAt : Int) :
    Except StoreError Membership × AclStore :=
  if parents : (∃ group ∈ store.groups.rows, group.id = groupId) ∧
      identityId ∈ store.identities then
    (.ok ⟨groupId, identityId, addedAt⟩, { store with
      memberships := store.memberships.upsert ⟨groupId, identityId, addedAt⟩
      referenced := fun membership row => by
        rcases (Table.mem_upsert _ _ _).mp row with rfl | ⟨known, _⟩
        · exact parents
        · exact store.referenced membership known })
  else (.error (.database "FOREIGN KEY constraint failed"), store)

def removeMember (store : AclStore) (groupId identityId : Uuid) : AclStore :=
  { store with
    memberships := store.memberships.deleteWhere fun row =>
      decide (row.groupId = groupId) && decide (row.identityId = identityId)
    referenced := fun membership row =>
      store.referenced membership ((Table.mem_deleteWhere _ _ _).mp row).1 }

def membersOf (store : AclStore) (groupId : Uuid) : List Uuid :=
  (store.memberships.select fun row => decide (row.groupId = groupId)).map Membership.identityId

def groupsFor (store : AclStore) (identityId : Uuid) : List Uuid :=
  (store.memberships.select fun row => decide (row.identityId = identityId)).map
    Membership.groupId

end AclStore

end Tomb.Haruspex.Acl
