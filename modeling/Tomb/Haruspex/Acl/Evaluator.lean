import Tomb.Haruspex.Acl.Store
import Tomb.Lib.Maximum

/-! The evaluator of effective roles, and what it computes on one state of the stores. -/
namespace Tomb.Haruspex.Acl
open Tomb.Lib

abbrev RoleResolver := Uuid → Resource → Option Role

def merge : Option Role → Option Role → Option Role
  | none, none => none
  | some x, none => some x
  | none, some y => some y
  | some x, some y => some (max x y)

theorem merge_eq (a b : Option Role) : merge a b = a.merge max b := by
  cases a <;> cases b <;> rfl

namespace RoleGrant

@[grind =] def expired (grant : RoleGrant) (now : Int) : Bool :=
  match grant.expiresAt with
  | some expiresAt => decide (expiresAt ≤ now)
  | none => false

def applies (grant : RoleGrant) (identityId : Uuid) (memberGroupIds : List Uuid) : Bool :=
  match grant.subject with
  | .identity id => decide (id = identityId)
  | .group groupId => memberGroupIds.contains groupId
  | .everyone => true

theorem expired_eq_false (grant : RoleGrant) (now : Int) :
    grant.expired now = false ↔ ∀ expiresAt, grant.expiresAt = some expiresAt → now < expiresAt := by
  unfold expired
  cases grant.expiresAt <;> simp

end RoleGrant

namespace AclStore

def subjectsFor (store : AclStore) (identityId : Uuid) : List Uuid := store.groupsFor identityId

def roleOn (store : AclStore) (identityId : Uuid) (resource : Resource)
    (memberGroupIds : List Uuid) (now : Int) : Option Role :=
  (store.grantsOn resource).foldl (fun best grant =>
    if grant.expired now then best
    else if grant.applies identityId memberGroupIds then merge best (some grant.role)
    else best) none

def effectiveRole (store : AclStore) (identityId : Uuid) (resource : Resource)
    (ancestors : List Resource) (now : Int) (resolver : Option RoleResolver) : Option Role :=
  let memberGroupIds := store.subjectsFor identityId
  let resolved := match resolver with
    | some resolver => resolver identityId resource
    | none => none
  let best := match resolved with
    | some role => merge none (some role)
    | none => merge none (store.roleOn identityId resource memberGroupIds now)
  ancestors.foldl (fun best ancestor =>
    merge best (store.roleOn identityId ancestor memberGroupIds now)) best

def effectiveBlobRole (store : AclStore) (identityId : Uuid)
    (referencingDocs : List (Resource × List Resource)) (now : Int)
    (resolver : Option RoleResolver) : Option Role :=
  referencingDocs.foldl (fun best doc =>
    merge best (store.effectiveRole identityId doc.1 doc.2 now resolver)) none

def IsMember (store : AclStore) (groupId identityId : Uuid) : Prop :=
  ∃ row ∈ store.memberships, row.groupId = groupId ∧ row.identityId = identityId

theorem mem_subjectsFor (store : AclStore) (identityId groupId : Uuid) :
    groupId ∈ store.subjectsFor identityId ↔ store.IsMember groupId identityId := by
  simp only [subjectsFor, groupsFor, List.mem_map, Table.mem_select, decide_eq_true_eq, IsMember]
  exact exists_congr fun row => ⟨fun h => ⟨h.1.1, h.2, h.1.2⟩, fun h => ⟨⟨h.1, h.2.2⟩, h.2.1⟩⟩

/-- The subjects of an identity: itself, the groups it is a member of, and everyone. -/
def Covers (store : AclStore) (identityId : Uuid) : Subject → Prop
  | .identity id => id = identityId
  | .group groupId => store.IsMember groupId identityId
  | .everyone => True

theorem applies_iff_covers (store : AclStore) (identityId : Uuid) (grant : RoleGrant) :
    grant.applies identityId (store.subjectsFor identityId) = true ↔
      store.Covers identityId grant.subject := by
  unfold RoleGrant.applies Covers
  cases grant.subject with
  | identity id => simp
  | group groupId => simp [mem_subjectsFor]
  | everyone => simp

def rolesOn (store : AclStore) (identityId : Uuid) (resource : Resource) (now : Int) :
    Set Role :=
  {role | ∃ grant ∈ store.grants, grant.resource = resource ∧ grant.expired now = false ∧
    store.Covers identityId grant.subject ∧ grant.role = role}

def contribution (store : AclStore) (identityId : Uuid) (now : Int) (grant : RoleGrant) :
    Option Role :=
  if grant.expired now then none
  else if grant.applies identityId (store.subjectsFor identityId) then some grant.role else none

theorem contribution_eq_some (store : AclStore) (identityId : Uuid) (now : Int)
    (grant : RoleGrant) (role : Role) :
    store.contribution identityId now grant = some role ↔
      grant.expired now = false ∧ store.Covers identityId grant.subject ∧ grant.role = role := by
  rw [← applies_iff_covers]
  unfold contribution
  split
  · rename_i expired
    simp [expired]
  · rename_i live
    split <;> simp_all

theorem roleOn_eq_foldl (store : AclStore) (identityId : Uuid) (resource : Resource)
    (now : Int) :
    store.roleOn identityId resource (store.subjectsFor identityId) now =
      (store.grantsOn resource).foldl
        (fun best grant => best.merge max (store.contribution identityId now grant)) none := by
  unfold roleOn
  congr 1
  funext best grant
  unfold contribution
  split
  · cases best <;> rfl
  · split
    · exact merge_eq _ _
    · cases best <;> rfl

theorem roleOn_isMaximum (store : AclStore) (identityId : Uuid) (resource : Resource)
    (now : Int) :
    IsMaximum (store.roleOn identityId resource (store.subjectsFor identityId) now)
      (store.rolesOn identityId resource now) := by
  have total := IsMaximum.foldl (store.contribution identityId now) _
    (fun grant => IsMaximum.of_option _) (store.grantsOn resource) IsMaximum.none_empty
  have roles : store.rolesOn identityId resource now = ∅ ∪ ⋃ grant ∈ store.grantsOn resource,
      {role | store.contribution identityId now grant = some role} := by
    ext role
    simp only [rolesOn, contribution_eq_some, grantsOn, Set.mem_ofPred_eq, Set.empty_union,
      Set.mem_iUnion, Table.mem_select, decide_eq_true_eq, exists_prop, and_assoc]
  rw [roles, roleOn_eq_foldl]
  exact total

theorem effectiveRole_isMaximum (store : AclStore) (identityId : Uuid) (resource : Resource)
    (ancestors : List Resource) (now : Int) (resolver : Option RoleResolver) :
    IsMaximum (store.effectiveRole identityId resource ancestors now resolver)
      ((match resolver.bind (· identityId resource) with
        | some role => {role}
        | none => store.rolesOn identityId resource now) ∪
          ⋃ ancestor ∈ ancestors, store.rolesOn identityId ancestor now) := by
  have inherited (best : Option Role) (own : Set Role) (known : IsMaximum best own) :=
    IsMaximum.foldl (fun ancestor => store.roleOn identityId ancestor
      (store.subjectsFor identityId) now) (fun ancestor => store.rolesOn identityId ancestor now)
      (fun ancestor => store.roleOn_isMaximum identityId ancestor now) ancestors known
  have own := store.roleOn_isMaximum identityId resource now
  unfold effectiveRole
  simp only [merge_eq]
  cases resolver with
  | none => exact inherited _ _ (by cases h : store.roleOn identityId resource _ now <;>
      simpa [Option.merge, h] using own)
  | some resolver =>
    cases answer : resolver identityId resource with
    | none =>
      simp only [Option.bind_some, answer]
      exact inherited _ _ (by cases h : store.roleOn identityId resource _ now <;>
        simpa [Option.merge, h] using own)
    | some role =>
      simp only [Option.bind_some, answer]
      exact inherited _ _ (IsMaximum.singleton role)

theorem effectiveBlobRole_isMaximum (store : AclStore) (identityId : Uuid)
    (referencingDocs : List (Resource × List Resource)) (now : Int)
    (resolver : Option RoleResolver) :
    IsMaximum (store.effectiveBlobRole identityId referencingDocs now resolver)
      {role | ∃ doc ∈ referencingDocs,
        store.effectiveRole identityId doc.1 doc.2 now resolver = some role} := by
  have total := IsMaximum.foldl
    (fun doc => store.effectiveRole identityId doc.1 doc.2 now resolver) _
    (fun doc => IsMaximum.of_option _) referencingDocs IsMaximum.none_empty
  have roles : {role | ∃ doc ∈ referencingDocs,
      store.effectiveRole identityId doc.1 doc.2 now resolver = some role} =
      ∅ ∪ ⋃ doc ∈ referencingDocs,
        {role | store.effectiveRole identityId doc.1 doc.2 now resolver = some role} := by
    ext role
    simp
  rw [roles]
  simpa only [effectiveBlobRole, merge_eq] using total

end AclStore

end Tomb.Haruspex.Acl
