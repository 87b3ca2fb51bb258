import Tomb.Grimoire.Models
import Tomb.Haruspex.Program

/-! Grimoire's own table of accounts beside haruspex's database, and the sql statements of the
user repository as commands. -/
namespace Tomb.Grimoire

open Lib
open Haruspex (Stores StoreError)

structure Db where
  stores : Stores
  users : Table User.id
  nextUser : Nat

def uniqueFailed (column : String) : AuthError :=
  .database ("UNIQUE constraint failed: " ++ column)

namespace Db

def empty : Db := ⟨Stores.empty, ∅, 0⟩

def setNow (s : Db) (now : Int) : Db := { s with stores := { s.stores with now := now } }

def findUserById (s : Db) (id : Nat) : Option User := s.users.get id

def findUserByUsername (s : Db) (username : String) : Option User :=
  s.users.rows.find? fun user => decide (user.username = username)

theorem findUserById_eq_some {s : Db} {id : Nat} {user : User} :
    s.findUserById id = some user ↔ user ∈ s.users ∧ user.id = id :=
  Table.get_eq_some _ _ _

theorem mem_of_findUserByUsername {s : Db} {username : String} {user : User}
    (found : s.findUserByUsername username = some user) :
    user ∈ s.users ∧ user.username = username :=
  ⟨List.mem_of_find?_eq_some found, by simpa using List.find?_some found⟩

theorem findUserByUsername_eq_none {s : Db} {username : String} :
    s.findUserByUsername username = none ↔ ∀ user ∈ s.users, user.username ≠ username := by
  simp [findUserByUsername, Table.mem_def]

def findFirstRootUser (s : Db) : Option User :=
  ((s.users.select fun user => decide (user.role = .root) && user.deletedAt.isNone).insertionSort
    fun a b => a.createdAt ≤ b.createdAt).head?

def findUserByHaruspexId (s : Db) (haruspexUserId : String) (includeDeleted : Bool) :
    Option User :=
  s.users.rows.find? fun user =>
    decide (user.haruspexUserId = some haruspexUserId) && (includeDeleted || user.deletedAt.isNone)

def usernameTaken (s : Db) (id : Nat) (username : String) : Bool :=
  s.users.rows.any fun user => decide (user.id ≠ id) && decide (user.username = username)

def haruspexIdTaken (s : Db) (id : Nat) (haruspexUserId : Option String) : Bool :=
  haruspexUserId.isSome && s.users.rows.any fun user =>
    decide (user.id ≠ id) && decide (user.haruspexUserId = haruspexUserId)

def insertUser (s : Db) (username : String) (role : UserRole) (haruspexUserId : Option String)
    (now : Int) : Except AuthError User × Db :=
  let row : User := ⟨s.nextUser, username, role, none, now, now, none, haruspexUserId⟩
  if s.usernameTaken row.id username then (.error (uniqueFailed "user_accountz.username"), s)
  else if s.haruspexIdTaken row.id haruspexUserId then
    (.error (uniqueFailed "user_accountz.haruspex_user_id"), s)
  else
    match s.users.insert row with
    | some users => (.ok row, { s with users := users, nextUser := s.nextUser + 1 })
    | none => (.error (uniqueFailed "user_accountz.id"), s)

def updateUser (s : Db) (id : Nat) (f : User → User) (keeps : ∀ user, (f user).id = user.id) :
    Db :=
  { s with users := s.users.update (fun user => decide (user.id = id)) f keeps }

theorem mem_updateUser {s : Db} {id : Nat} {f : User → User} {keeps : ∀ user, (f user).id = user.id}
    {user : User} : user ∈ (s.updateUser id f keeps).users ↔
      ∃ old ∈ s.users, (if old.id = id then f old else old) = user := by
  simp [updateUser]

def setRole (s : Db) (id : Nat) (role : UserRole) (now : Int) : Db :=
  s.updateUser id (fun user => { user with role := role, updatedAt := now }) fun _ => rfl

def touchUser (s : Db) (id : Nat) (now : Int) : Db :=
  s.updateUser id (fun user => { user with updatedAt := now }) fun _ => rfl

def setUsername (s : Db) (id : Nat) (username : String) (now : Int) :
    Except AuthError Unit × Db :=
  if (s.users.get id).isSome && s.usernameTaken id username then
    (.error (uniqueFailed "user_accountz.username"), s)
  else
    (.ok (), s.updateUser id (fun user => { user with username := username, updatedAt := now })
      fun _ => rfl)

def softDeleteUser (s : Db) (id : Nat) (now : Int) : Db :=
  s.updateUser id (fun user => { user with deletedAt := some now, updatedAt := now }) fun _ => rfl

def restoreUser (s : Db) (id : Nat) (now : Int) : Db :=
  s.updateUser id (fun user => { user with deletedAt := none, updatedAt := now }) fun _ => rfl

def deleteUserRow (s : Db) (id : Nat) : Db :=
  { s with users := s.users.deleteWhere fun user => decide (user.id = id) }

def updateFederatedProfile (s : Db) (id : Nat) (username : String) (now : Int) :
    Except AuthError User × Db :=
  match s.users.get id with
  | none => (.error (.database
      "no rows returned by a query that expected to return at least one row"), s)
  | some user =>
    if s.usernameTaken id username then (.error (uniqueFailed "user_accountz.username"), s)
    else (.ok { user with username := username, updatedAt := now },
      s.updateUser id (fun user => { user with username := username, updatedAt := now })
        fun _ => rfl)

def setHaruspexUserId (s : Db) (id : Nat) (haruspexUserId : String) (now : Int) :
    Except AuthError Unit × Db :=
  if (s.users.get id).isSome && s.haruspexIdTaken id (some haruspexUserId) then
    (.error (uniqueFailed "user_accountz.haruspex_user_id"), s)
  else
    (.ok (), s.updateUser id
      (fun user => { user with haruspexUserId := some haruspexUserId, updatedAt := now })
      fun _ => rfl)

end Db

inductive UserCmd : Type → Type where
  | findUserById (id : Nat) : UserCmd (Option User)
  | findUserByUsername (username : String) : UserCmd (Option User)
  | findFirstRootUser : UserCmd (Option User)
  | findUserByHaruspexId (haruspexUserId : String) (includeDeleted : Bool) : UserCmd (Option User)
  | insertUser (username : String) (role : UserRole) (haruspexUserId : Option String) (now : Int) :
      UserCmd (Except AuthError User)
  | setRole (id : Nat) (role : UserRole) (now : Int) : UserCmd Unit
  | touchUser (id : Nat) (now : Int) : UserCmd Unit
  | setUsername (id : Nat) (username : String) (now : Int) : UserCmd (Except AuthError Unit)
  | softDeleteUser (id : Nat) (now : Int) : UserCmd Unit
  | restoreUser (id : Nat) (now : Int) : UserCmd Unit
  | deleteUserRow (id : Nat) : UserCmd Unit
  | updateFederatedProfile (id : Nat) (username : String) (now : Int) :
      UserCmd (Except AuthError User)
  | setHaruspexUserId (id : Nat) (haruspexUserId : String) (now : Int) :
      UserCmd (Except AuthError Unit)

namespace UserCmd

def exec : {β : Type} → UserCmd β → Db → β × Db
  | _, .findUserById id, s => (s.findUserById id, s)
  | _, .findUserByUsername username, s => (s.findUserByUsername username, s)
  | _, .findFirstRootUser, s => (s.findFirstRootUser, s)
  | _, .findUserByHaruspexId haruspexUserId includeDeleted, s =>
    (s.findUserByHaruspexId haruspexUserId includeDeleted, s)
  | _, .insertUser username role haruspexUserId now, s =>
    s.insertUser username role haruspexUserId now
  | _, .setRole id role now, s => ((), s.setRole id role now)
  | _, .touchUser id now, s => ((), s.touchUser id now)
  | _, .setUsername id username now, s => s.setUsername id username now
  | _, .softDeleteUser id now, s => ((), s.softDeleteUser id now)
  | _, .restoreUser id now, s => ((), s.restoreUser id now)
  | _, .deleteUserRow id, s => ((), s.deleteUserRow id)
  | _, .updateFederatedProfile id username now, s => s.updateFederatedProfile id username now
  | _, .setHaruspexUserId id haruspexUserId now, s => s.setHaruspexUserId id haruspexUserId now

end UserCmd

inductive Cmd (β : Type) : Type where
  | haruspex (command : Haruspex.Cmd β)
  | users (command : UserCmd β)

namespace Cmd

@[grind =] def exec {β : Type} (command : Cmd β) (s : Db) : β × Db :=
  match command with
  | .haruspex command => ((command.exec s.stores).1, { s with stores := (command.exec s.stores).2 })
  | .users command => command.exec s

inductive Effect where
  | haruspex (effect : Haruspex.Cmd.Effect)
  | insertUser
  | setRole
  | touchUser
  | setUsername
  | softDeleteUser
  | restoreUser
  | deleteUserRow
  | updateFederatedProfile
  | setHaruspexUserId
  deriving DecidableEq

abbrev Effect.read : Effect := .haruspex .read

end Cmd

@[simp] def UserCmd.effect : {β : Type} → UserCmd β → Cmd.Effect
  | _, .findUserById _ => .read
  | _, .findUserByUsername _ => .read
  | _, .findFirstRootUser => .read
  | _, .findUserByHaruspexId _ _ => .read
  | _, .insertUser _ _ _ _ => .insertUser
  | _, .setRole _ _ _ => .setRole
  | _, .touchUser _ _ => .touchUser
  | _, .setUsername _ _ _ => .setUsername
  | _, .softDeleteUser _ _ => .softDeleteUser
  | _, .restoreUser _ _ => .restoreUser
  | _, .deleteUserRow _ => .deleteUserRow
  | _, .updateFederatedProfile _ _ _ => .updateFederatedProfile
  | _, .setHaruspexUserId _ _ _ => .setHaruspexUserId

namespace Cmd

@[simp] def effect {β : Type} : Cmd β → Effect
  | .haruspex command => .haruspex command.effect
  | .users command => command.effect

def Uses (effects : Set Effect) {β : Type} (command : Cmd β) : Prop :=
  command.effect ∈ effects

@[simp] theorem uses_iff (effects : Set Effect) {β : Type} (command : Cmd β) :
    command.Uses effects ↔ command.effect ∈ effects := Iff.rfl

end Cmd

instance : Machine Cmd Db := ⟨Cmd.exec⟩

@[simp] theorem machine_exec {β : Type} (command : Cmd β) (s : Db) :
    Machine.exec command s = command.exec s := rfl

theorem UserCmd.exec_stores {β : Type} (command : UserCmd β) (s : Db) :
    (command.exec s).2.stores = s.stores := by
  cases command with
  | insertUser username role haruspexUserId now =>
    simp only [exec, Db.insertUser]
    split <;> first | rfl | (split <;> first | rfl | (split <;> rfl))
  | setUsername id username now =>
    simp only [exec, Db.setUsername]
    split <;> rfl
  | updateFederatedProfile id username now =>
    simp only [exec, Db.updateFederatedProfile]
    split <;> first | rfl | (split <;> rfl)
  | setHaruspexUserId id haruspexUserId now =>
    simp only [exec, Db.setHaruspexUserId]
    split <;> rfl
  | _ => rfl

theorem Cmd.exec_users {β : Type} (command : Cmd β) (s : Db)
    (other : command.effect ∈ Set.range Cmd.Effect.haruspex) :
    (command.exec s).2.users = s.users := by
  cases command with
  | haruspex command => rfl
  | users command => cases command <;> first | rfl | simp at other

abbrev Auth (α : Type) := Prog Cmd AuthError α

abbrev ask {ε α : Type} (command : Haruspex.Cmd α) : Prog Cmd ε α := .issue (.haruspex command)

abbrev tryStore {α : Type} (command : Haruspex.Cmd (Except StoreError α)) :
    Prog Cmd StoreError α :=
  .attempt (.haruspex command)

abbrev store {α : Type} (p : Prog Haruspex.Cmd StoreError α) : Prog Cmd StoreError α :=
  p.embed .haruspex

abbrev orDatabase {α : Type} (p : Prog Cmd StoreError α) : Auth α := p.mapError .ofStore

abbrev query {ε α : Type} (command : UserCmd α) : Prog Cmd ε α := .issue (.users command)

abbrev tryQuery {α : Type} (command : UserCmd (Except AuthError α)) : Auth α :=
  .attempt (.users command)

end Tomb.Grimoire
