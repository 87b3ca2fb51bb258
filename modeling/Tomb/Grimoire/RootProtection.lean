import Mathlib.Data.List.Induction
import Tomb.Grimoire.Operations

/-! Who can take the root account away. Every operation of the service guards the root account by
itself; deleting an account is the one that does not. -/
namespace Tomb.Grimoire

open Lib

def Db.RootActive (s : Db) (rootId : Nat) : Prop :=
  ∃ user ∈ s.users, user.id = rootId ∧ user.role = .root ∧ user.deletedAt = none

/-- The statements that can harm an account: its role, its deletion mark or its row. -/
@[grind =] def UserCmd.Harms {β : Type} (rootId : Nat) : UserCmd β → Prop
  | .setRole id _ _ => id = rootId
  | .softDeleteUser id _ => id = rootId
  | .deleteUserRow id => id = rootId
  | _ => False

def Cmd.Harms {β : Type} (rootId : Nat) : Cmd β → Prop
  | .haruspex _ => False
  | .users command => command.Harms rootId

def Cmd.Spares {β : Type} (rootId : Nat) (command : Cmd β) : Prop := ¬command.Harms rootId

variable {β : Type}

@[simp] theorem Cmd.spares_haruspex (rootId : Nat) (command : Haruspex.Cmd β) :
    (Cmd.haruspex command).Spares rootId := id

@[simp] theorem Cmd.spares_users (rootId : Nat) (command : UserCmd β) :
    (Cmd.users command).Spares rootId ↔ ¬command.Harms rootId := Iff.rfl

namespace Db

theorem updateUser_rootActive {s : Db} {rootId id : Nat} {f : User → User}
    {keeps : ∀ user, (f user).id = user.id} (root : s.RootActive rootId)
    (spares : id = rootId → ∀ user, (f user).role = user.role ∧
      (user.deletedAt = none → (f user).deletedAt = none)) :
    (s.updateUser id f keeps).RootActive rootId := by
  obtain ⟨user, present, same, role, active⟩ := root
  by_cases target : user.id = id
  · obtain ⟨sameRole, sameMark⟩ := spares (target.symm.trans same) user
    exact ⟨f user, mem_updateUser.mpr ⟨user, present, if_pos target⟩, (keeps user).trans same,
      sameRole.trans role, sameMark active⟩
  · exact ⟨user, mem_updateUser.mpr ⟨user, present, if_neg target⟩, same, role, active⟩

end Db

variable {rootId : Nat}

theorem UserCmd.exec_rootActive (command : UserCmd β) {s : Db}
    (spares : ¬command.Harms rootId) (root : s.RootActive rootId) :
    (command.exec s).2.RootActive rootId := by
  cases command with
  | insertUser username role haruspexUserId now =>
    simp only [exec, Db.insertUser]
    split
    · exact root
    split
    · exact root
    split
    · rename_i users done
      obtain ⟨user, present, rest⟩ := root
      exact ⟨user, (Table.insert_eq_some _ _ _ done _).mpr (.inl present), rest⟩
    · exact root
  | setRole userId role now =>
    exact Db.updateUser_rootActive root fun same => absurd same spares
  | softDeleteUser id now =>
    exact Db.updateUser_rootActive root fun same => absurd same spares
  | deleteUserRow id =>
    obtain ⟨user, present, same, rest⟩ := root
    refine ⟨user, (Table.mem_deleteWhere ..).mpr ⟨present, ?_⟩, same, rest⟩
    simpa [same] using fun target => spares (show id = rootId from target.symm)
  | touchUser id now => exact Db.updateUser_rootActive root fun _ _ => ⟨rfl, fun active => active⟩
  | restoreUser id now => exact Db.updateUser_rootActive root fun _ _ => ⟨rfl, fun _ => rfl⟩
  | setUsername id username now =>
    simp only [exec, Db.setUsername]
    split
    · exact root
    · exact Db.updateUser_rootActive root fun _ _ => ⟨rfl, fun active => active⟩
  | updateFederatedProfile id username now =>
    simp only [exec, Db.updateFederatedProfile]
    split
    · exact root
    split
    · exact root
    · exact Db.updateUser_rootActive root fun _ _ => ⟨rfl, fun active => active⟩
  | setHaruspexUserId id haruspexUserId now =>
    simp only [exec, Db.setHaruspexUserId]
    split
    · exact root
    · exact Db.updateUser_rootActive root fun _ _ => ⟨rfl, fun active => active⟩
  | _ => exact root

theorem Cmd.exec_rootActive (command : Cmd β) {s : Db}
    (spares : command.Spares rootId) (root : s.RootActive rootId) :
    (command.exec s).2.RootActive rootId := by
  cases command with
  | haruspex command => exact root
  | users command => exact command.exec_rootActive spares root

theorem Cmd.spares_of_effect (command : Cmd β) (rootId : Nat)
    (other : command.effect ∉ ({.setRole, .softDeleteUser, .deleteUserRow} : Set Effect)) :
    command.Spares rootId := by
  cases command with
  | haruspex command => exact id
  | users command => cases command <;> first | exact id | simp at other

def Cmd.harmless : Set Cmd.Effect := {.setRole, .softDeleteUser, .deleteUserRow}ᶜ

theorem spares_of_uses {ε α : Type} {p : Prog Cmd ε α} {effects : Set Cmd.Effect}
    (uses : p.Within (Cmd.Uses effects)) (within : effects ⊆ Cmd.harmless) (rootId : Nat) :
    p.Within (Cmd.Spares rootId) :=
  uses.imp fun command used => command.spares_of_effect rootId (within used)

theorem ends_rootActive {ε α : Type} {p : Prog Cmd ε α} {s : Db}
    (spares : p.Within (Cmd.Spares rootId)) (root : s.RootActive rootId) :
    p.Ends (fun _ _ => True) s fun _ t => t.RootActive rootId :=
  spares.ends (fun command _ spares _ root => command.exec_rootActive spares root) root

theorem Db.RootActive.find {s : Db} (root : s.RootActive rootId) {user : User}
    (found : s.findUserById rootId = some user) : user.role = .root := by
  obtain ⟨known, present, same, role, _⟩ := root
  obtain ⟨member, sameId⟩ := (Table.get_eq_some _ _ _).mp found
  rw [← s.users.eq_of_key_eq present member (same.trans sameId.symm)]
  exact role

namespace UserService

theorem updateUser_rootActive (userId : Nat) (request : UpdateUserRequest) (requestingUser : User)
    {s : Db} {rootId : Nat} (root : s.RootActive rootId) :
    ((updateUser userId request requestingUser).run s).2.RootActive rootId := by
  have ends : (updateUser userId request requestingUser).Ends (fun _ _ => True) s
      fun _ t => t.RootActive rootId := by
    simp only [updateUser, getUser, Prog.ends_bind, Prog.ends_require, Prog.ends_issue,
      Prog.ends_ofOption, Prog.ends_mapError]
    refine ⟨fun _ => ⟨fun _ _ => ⟨fun target found => ⟨fun guarded => ?_, fun _ => root⟩,
      fun _ => root⟩, fun _ => root⟩, fun _ => root⟩
    have other : userId ≠ rootId := by
      rintro rfl
      exact of_decide_eq_true guarded (root.find found)
    have spares : (UserRepository.updateUser userId request).Within (Cmd.Spares rootId) := by
      obtain ⟨role⟩ := request
      cases role <;> simp [UserRepository.updateUser, UserCmd.Harms, other]
    refine (ends_rootActive spares root).imp fun result t root => ?_
    cases result <;> exact root
  exact Prog.ends_true.mp ends

theorem hardDeleteUser_rootActive (userId : Nat) (requestingUser : User) {s : Db} {rootId : Nat}
    (root : s.RootActive rootId) :
    ((hardDeleteUser userId requestingUser).run s).2.RootActive rootId := by
  have ends : (hardDeleteUser userId requestingUser).Ends (fun _ _ => True) s
      fun _ t => t.RootActive rootId := by
    simp only [hardDeleteUser, adminOnly, Prog.ends_bind, Prog.ends_require, Prog.ends_issue,
      Prog.ends_ofOption, Prog.ends_mapError]
    refine ⟨fun _ => ⟨fun _ _ => ⟨fun target found => ⟨fun guarded => ?_, fun _ => root⟩,
      fun _ => root⟩, fun _ => root⟩, fun _ => root⟩
    have other : userId ≠ rootId := by
      rintro rfl
      exact of_decide_eq_true guarded (root.find found)
    have spares : (UserRepository.hardDeleteUser userId).Within (Cmd.Spares rootId) := by
      simp [UserRepository.hardDeleteUser, UserCmd.Harms, other]
    refine (ends_rootActive spares root).imp fun result t root => ?_
    cases result <;> exact root
  exact Prog.ends_true.mp ends

theorem deleteUser_spares {userId rootId : Nat} (requestingUser : User)
    (other : ¬(userId = rootId ∧ mayDelete userId requestingUser = true)) :
    (deleteUser userId requestingUser).Within (Cmd.Spares rootId) := by
  have devices (list : List Haruspex.DeviceNode) :
      (UserRepository.removeDevices list).Within (Cmd.Spares rootId) :=
    spares_of_uses (UserRepository.removeDevices_uses list (Set.mem_singleton _))
      (by simp [Cmd.harmless]) rootId
  simp only [not_and] at other
  simp only [deleteUser, UserRepository.deleteUser, Prog.within_bind, Prog.within_require,
    Prog.within_mapError, Prog.within_issue, Prog.yields_require, Cmd.spares_haruspex,
    Cmd.spares_users, UserCmd.Harms, devices]
  exact ⟨trivial, fun _ permitted => ⟨⟨trivial, fun _ _ => ⟨fun same => other same permitted,
    fun _ _ => ⟨trivial, fun _ _ => trivial⟩⟩⟩, fun _ _ => trivial⟩⟩

theorem deleteUser_not_rootActive {userId : Nat} {requestingUser : User}
    (permitted : mayDelete userId requestingUser = true) (s : Db) :
    ¬((deleteUser userId requestingUser).run s).2.RootActive userId := by
  have ends : (deleteUser userId requestingUser).Ends (fun _ _ => True) s
      fun _ t => ∀ user ∈ t.users, user.id = userId → user.deletedAt ≠ none := by
    simp only [deleteUser, UserRepository.deleteUser, Prog.ends_bind, Prog.ends_require,
      Prog.ends_issue, Prog.ends_mapError]
    refine ⟨fun _ _ _ _ => ?_, fun refused => absurd permitted (by simp [refused])⟩
    have marked : ∀ user ∈ (s.softDeleteUser userId s.stores.now).users, user.id = userId →
        user.deletedAt ≠ none := by
      intro user present same
      obtain ⟨old, _, rfl⟩ := Db.mem_updateUser.mp present
      split at same <;> simp_all
    refine (ends_users (UserRepository.removeDevices_uses _ ⟨_, rfl⟩) _).imp fun result t same => ?_
    have same : t.users = (s.softDeleteUser userId s.stores.now).users := same
    rw [← same] at marked
    cases result <;> exact marked
  rintro ⟨user, present, same, _, active⟩
  exact Prog.ends_true.mp ends user present same active

end UserService

/-- The one call that takes an account away without asking for its role. -/
def Op.DeletesRoot (rootId : Nat) (op : Op) : Prop :=
  ∃ requestingUser, UserService.mayDelete rootId requestingUser = true ∧
    op = .service (.deleteUser rootId requestingUser)

theorem Op.perform_rootActive (site : Webauthn.Site) (op : Op) {s : Db}
    (spares : ¬op.DeletesRoot rootId) (root : s.RootActive rootId) :
    (op.perform site s).RootActive rootId := by
  have others (harmless : {.setRole, .softDeleteUser, .deleteUserRow} ⊆ op.effectsᶜ) :
      (op.perform site s).RootActive rootId :=
    op.perform_keeps site (fun t => t.RootActive rootId) (fun s now root => root)
      (fun command s used => command.exec_rootActive
        (command.spares_of_effect rootId fun harms => harmless harms used)) root
  cases op with
  | service op =>
    cases op with
    | updateUser userId request requestingUser =>
      simpa [perform, prog, ServiceOp.prog] using
        UserService.updateUser_rootActive userId request requestingUser root
    | hardDeleteUser userId requestingUser =>
      simpa [perform, prog, ServiceOp.prog] using
        UserService.hardDeleteUser_rootActive userId requestingUser root
    | deleteUser userId requestingUser =>
      have guarded : ¬(userId = rootId ∧ UserService.mayDelete userId requestingUser = true) := by
        rintro ⟨rfl, permitted⟩
        exact spares ⟨requestingUser, permitted, rfl⟩
      have spared := UserService.deleteUser_spares requestingUser guarded
      simpa [perform, prog, ServiceOp.prog] using Prog.ends_true.mp (ends_rootActive spared root)
    | _ => exact others (by simp [effects, ServiceOp.effects, Set.insert_subset_iff])
  | _ => exact others (by simp [effects, Set.insert_subset_iff])

/-- Whatever is asked of the server, in whatever order: the root account stays present, active
and root throughout if and only if nobody who may delete accounts deletes it. -/
theorem root_stays_iff_not_deleted (site : Webauthn.Site) (rootId : Nat) (s : Db)
    (root : s.RootActive rootId) (ops : List Op) :
    (∀ taken, taken <+: ops → (serve site taken s).RootActive rootId) ↔
      ∀ op ∈ ops, ¬op.DeletesRoot rootId := by
  constructor
  · rintro stays op member ⟨requestingUser, permitted, rfl⟩
    obtain ⟨before, after, rfl⟩ := List.append_of_mem member
    have kept := stays (before ++ [Op.service (.deleteUser rootId requestingUser)])
      ⟨after, by simp⟩
    rw [serve, runAll_append] at kept
    simp only [runAll_cons, runAll_nil, Op.perform, Op.prog, ServiceOp.prog, Prog.run_quiet]
      at kept
    exact UserService.deleteUser_not_rootActive permitted _ kept
  · intro spared taken initial
    induction taken using List.reverseRecOn with
    | nil => exact root
    | append_singleton before op ih =>
      have member : op ∈ ops := initial.subset (by simp)
      rw [serve, runAll_append]
      exact op.perform_rootActive site (spared op member)
        (ih ((List.prefix_append before [op]).trans initial))

def staffed : Db :=
  serve Webauthn.trustingSite
    [.service (.bootstrapRootUser "owner"), .service (.registerUser ⟨"helper", some .admin, none⟩)]
    Db.empty

def owner : User := ⟨0, "owner", .root, none, 0, 0, none, none⟩

def helper : User := ⟨1, "helper", .admin, none, 0, 0, none, none⟩

/-- The operations of an admin that does not delete accounts. -/
theorem root_stays_iff_not_deleted_staffed :
    (∀ taken, taken <+: [.service (.updateUser 0 ⟨some .viewer⟩ helper),
        .service (.hardDeleteUser 0 helper)] →
      (serve Webauthn.trustingSite taken staffed).RootActive 0) ↔
    ∀ op ∈ [Op.service (.updateUser 0 ⟨some .viewer⟩ helper),
      .service (.hardDeleteUser 0 helper)], ¬op.DeletesRoot 0 :=
  root_stays_iff_not_deleted Webauthn.trustingSite 0 staffed
    ⟨owner, show owner ∈ staffed.users.rows by decide, rfl, rfl, rfl⟩ _

/-- An admin that is not root deletes the root account. -/
theorem admin_deletes_root :
    staffed.RootActive 0 ∧ helper ∈ staffed.users ∧ helper.role ≠ .root ∧
      ¬(serve Webauthn.trustingSite [.service (.deleteUser 0 helper)] staffed).RootActive 0 := by
  refine ⟨⟨owner, show owner ∈ staffed.users.rows by decide, rfl, rfl, rfl⟩,
    show helper ∈ staffed.users.rows by decide, by decide, ?_⟩
  rintro ⟨user, present, same, _, active⟩
  have marked : ∀ user ∈ (serve Webauthn.trustingSite [.service (.deleteUser 0 helper)]
      staffed).users.rows, user.id = 0 → user.deletedAt ≠ none := by decide
  exact marked user present same active

end Tomb.Grimoire
