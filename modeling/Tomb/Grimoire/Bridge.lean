import Tomb.Grimoire.Operations

/-! The bridge between accounts and identities over whole runs. Both tables have a unique username:
the bridge works for an account as long as no identity but its own carries the account's name. -/
namespace Tomb.Grimoire

open Lib
open Haruspex (Identity Stores)

def Distinct (users : Table User.id) : Prop :=
  ∀ user ∈ users, ∀ other ∈ users, user.username = other.username → user = other

/-- No identity but the account's own carries the username. -/
def Db.NameFree (s : Db) (userId : Nat) (username : String) : Prop :=
  ∀ identity ∈ s.stores.identities, identity.username = some username →
    identity.id = identityIdForExistingUser userId

/-- The username index on the accounts, and the accounts' names against the identities. -/
structure Db.Consistent (s : Db) : Prop where
  distinct : Distinct s.users
  bridged : ∀ user ∈ s.users, s.NameFree user.id user.username

/-- The identity carries no account's name, or is that account's own. -/
def Db.Fitting (s : Db) (identity : Identity) : Prop :=
  ∀ user ∈ s.users, identity.username = some user.username →
    identity.id = identityIdForExistingUser user.id

instance (s : Db) (userId : Nat) (username : String) : Decidable (s.NameFree userId username) :=
  inferInstanceAs (Decidable (∀ identity ∈ s.stores.identities.rows,
    identity.username = some username → identity.id = identityIdForExistingUser userId))

/-- Whatever name the statement leaves an account with that it did not have before: no identity
but the account's own carries it. -/
def Cmd.NamesFreely {β : Type} (command : Cmd β) (s : Db) : Prop :=
  ∀ user ∈ (command.exec s).2.users,
    (∀ old ∈ s.users, old.id = user.id → old.username ≠ user.username) →
      s.NameFree user.id user.username

instance {β : Type} (command : Cmd β) (s : Db) : Decidable (command.NamesFreely s) :=
  inferInstanceAs (Decidable (∀ user ∈ (command.exec s).2.users.rows,
    (∀ old ∈ s.users.rows, old.id = user.id → old.username ≠ user.username) →
      s.NameFree user.id user.username))

theorem Db.Consistent.fitting_derived {s : Db} (consistent : s.Consistent) {user : User}
    (present : user ∈ s.users) (now : Int) :
    s.Fitting (derivedIdentity user.id user.username now) := by
  intro other known same
  rw [consistent.distinct user present other known (Option.some.inj same)]
  rfl

/-! What single statements keep. -/

theorem upsertIdentity_consistent {s : Db} (consistent : s.Consistent) {identity : Identity}
    (fitting : s.Fitting identity) :
    ({ s with stores := (s.stores.upsertIdentity identity).2 } : Db).Consistent := by
  refine ⟨consistent.distinct, fun user present row member carries => ?_⟩
  simp only [Stores.upsertIdentity] at member
  split at member
  · exact consistent.bridged user present row member carries
  · rcases (Table.mem_upsert _ _ _).mp member with rfl | ⟨known, _⟩
    · exact fitting user present carries
    · exact consistent.bridged user present row known carries

theorem exec_identities {β : Type} (command : Haruspex.Cmd β) (s : Stores)
    (other : command.effect ≠ .upsertIdentity) :
    ∀ row ∈ (command.exec s).2.identities, row ∈ s.identities := by
  intro row member
  by_cases writes : Haruspex.Relation.identities ∈ command.effect.writes
  · cases command with
    | upsertIdentity identity => exact absurd rfl other
    | hardDeleteIdentity id => exact ((Table.mem_deleteWhere _ _ _).mp member).1
    | _ => simp [Haruspex.Cmd.Effect.writes] at writes
  · have same : (command.exec s).2.identities = s.identities := command.exec_frame s writes
    rwa [same] at member

theorem updateUser_distinct {s : Db} {id : Nat} {f : User → User}
    {keeps : ∀ user, (f user).id = user.id} (distinct : Distinct s.users)
    (apart : ∀ user ∈ s.users, user.id = id → ∀ other ∈ s.users, other.id ≠ id →
      (f user).username ≠ other.username) : Distinct (s.updateUser id f keeps).users := by
  intro user present other known same
  obtain ⟨user, wasUser, rfl⟩ := Db.mem_updateUser.mp present
  obtain ⟨other, wasOther, rfl⟩ := Db.mem_updateUser.mp known
  by_cases hit : user.id = id <;> by_cases hit' : other.id = id
  · rw [s.users.eq_of_key_eq wasUser wasOther (hit.trans hit'.symm)]
  · rw [if_pos hit, if_neg hit'] at same
    exact absurd same (apart user wasUser hit other wasOther hit')
  · rw [if_neg hit, if_pos hit'] at same
    exact absurd same.symm (apart other wasOther hit' user wasUser hit)
  · rw [if_neg hit, if_neg hit'] at same ⊢
    exact distinct user wasUser other wasOther same

theorem updateUser_distinct_of_keeps {s : Db} {id : Nat} {f : User → User}
    {keeps : ∀ user, (f user).id = user.id} (distinct : Distinct s.users)
    (named : ∀ user, (f user).username = user.username) :
    Distinct (s.updateUser id f keeps).users :=
  updateUser_distinct distinct fun user present hit other known miss same =>
    miss (distinct user present other known ((named user).symm.trans same) ▸ hit)

theorem updateUser_distinct_of_free {s : Db} {id : Nat} {f : User → User} {username : String}
    {keeps : ∀ user, (f user).id = user.id} (distinct : Distinct s.users)
    (named : ∀ user, (f user).username = username) (free : ¬s.usernameTaken id username = true) :
    Distinct (s.updateUser id f keeps).users := by
  refine updateUser_distinct distinct fun user _ _ other known miss same => free ?_
  simp only [Db.usernameTaken, List.any_eq_true, Bool.and_eq_true, decide_eq_true_eq]
  exact ⟨other, known, miss, same.symm.trans (named user)⟩

theorem UserCmd.exec_distinct {β : Type} (command : UserCmd β) {s : Db}
    (distinct : Distinct s.users) : Distinct (command.exec s).2.users := by
  cases command with
  | insertUser username role haruspexUserId now =>
    simp only [exec, Db.insertUser]
    split
    · exact distinct
    split
    · exact distinct
    split
    · rename_i free _ _ users done
      intro user present other known same
      have fresh : ∀ old ∈ s.users, old.username ≠ username := by
        intro old member named
        have different : old.id ≠ s.nextUser := fun sameId => by
          have refused := (Table.insert_eq_none s.users
            ⟨s.nextUser, username, role, none, now, now, none, haruspexUserId⟩).mpr
              ⟨old, member, sameId⟩
          exact absurd (done.symm.trans refused) (by simp)
        exact free (by simpa [Db.usernameTaken] using ⟨old, member, different, named⟩)
      rcases (Table.insert_eq_some _ _ _ done _).mp present with present | rfl <;>
        rcases (Table.insert_eq_some _ _ _ done _).mp known with known | rfl
      · exact distinct user present other known same
      · exact absurd same (fresh user present)
      · exact absurd same.symm (fresh other known)
      · rfl
    · exact distinct
  | setRole id role now => exact updateUser_distinct_of_keeps distinct fun _ => rfl
  | touchUser id now => exact updateUser_distinct_of_keeps distinct fun _ => rfl
  | softDeleteUser id now => exact updateUser_distinct_of_keeps distinct fun _ => rfl
  | restoreUser id now => exact updateUser_distinct_of_keeps distinct fun _ => rfl
  | deleteUserRow id =>
    intro user present other known
    exact distinct user ((Table.mem_deleteWhere _ _ _).mp present).1 other
      ((Table.mem_deleteWhere _ _ _).mp known).1
  | setUsername id username now =>
    simp only [exec, Db.setUsername]
    split
    · exact distinct
    · rename_i free
      refine updateUser_distinct distinct fun user present hit other known miss same => free ?_
      have found : s.users.get id = some user := (Table.get_eq_some _ _ _).mpr ⟨present, hit⟩
      have taken : s.usernameTaken id username = true := by
        simpa [Db.usernameTaken] using ⟨other, known, miss, same.symm⟩
      rw [found, taken]
      rfl
  | updateFederatedProfile id username now =>
    simp only [exec, Db.updateFederatedProfile]
    split
    · exact distinct
    split
    · exact distinct
    · rename_i free
      exact updateUser_distinct_of_free distinct (fun _ => rfl) free
  | setHaruspexUserId id haruspexUserId now =>
    simp only [exec, Db.setHaruspexUserId]
    split
    · exact distinct
    · exact updateUser_distinct_of_keeps distinct fun _ => rfl
  | _ => exact distinct

theorem Cmd.exec_consistent {β : Type} (command : Cmd β) {s : Db}
    (other : command.effect ≠ .haruspex .upsertIdentity) (freely : command.NamesFreely s)
    (consistent : s.Consistent) : (command.exec s).2.Consistent := by
  cases command with
  | haruspex command =>
    have kept := exec_identities command s.stores fun same => other (congrArg _ same)
    exact ⟨consistent.distinct, fun user present row member =>
      consistent.bridged user present row (kept row member)⟩
  | users command =>
    have same : (command.exec s).2.stores = s.stores := command.exec_stores s
    refine ⟨command.exec_distinct consistent.distinct, fun user present row member carries => ?_⟩
    simp only [exec, same] at member
    by_cases named : ∀ old ∈ s.users, old.id = user.id → old.username ≠ user.username
    · exact freely user present named row member carries
    · push Not at named
      obtain ⟨old, known, sameId, sameName⟩ := named
      rw [← sameId]
      exact consistent.bridged old known row member (sameName ▸ carries)

/-! What the programs keep. -/

/-- The bridge stays consistent through the run of the program alone, as long as accounts are
named freely. -/
abbrev KeepsBridge {ε α : Type} (p : Prog Cmd ε α) (s : Db) : Prop :=
  p.Keeps Cmd.NamesFreely Db.Consistent s

variable {ε : Type}

@[simp low] theorem keepsBridge_of_uses {α : Type} (p : Prog Cmd ε α) (s : Db)
    (uses : p.Within (Cmd.Uses {.haruspex .upsertIdentity}ᶜ)) : KeepsBridge p s :=
  uses.keeps (fun command _ other freely consistent =>
    command.exec_consistent other freely consistent) s

@[simp] theorem keepsBridge_embed {α : Type} (p : Prog Haruspex.Cmd ε α) (s : Db)
    (uses : p.Within (Haruspex.Cmd.Uses {.upsertIdentity}ᶜ)) :
    KeepsBridge (p.embed Cmd.haruspex) s :=
  keepsBridge_of_uses _ s (Prog.within_embed (uses.imp fun _ other => by simpa using other))

@[simp] theorem keepsBridge_ask {α : Type} (command : Haruspex.Cmd α) (s : Db)
    (other : ¬command.effect = .upsertIdentity) : KeepsBridge (ask command : Prog Cmd ε α) s :=
  Prog.keeps_issue fun freely consistent =>
    Cmd.exec_consistent _ (fun same => other (by simpa using same)) freely consistent

@[simp] theorem keepsBridge_query {α : Type} (command : UserCmd α) (s : Db) :
    KeepsBridge (query command : Prog Cmd ε α) s :=
  Prog.keeps_issue fun freely consistent =>
    Cmd.exec_consistent _ (by cases command <;> simp) freely consistent

theorem keepsBridge_upsertIdentity {s : Db} {identity : Identity} (fitting : s.Fitting identity) :
    KeepsBridge (tryStore (.upsertIdentity identity)) s :=
  Prog.keeps_attempt fun _ consistent => upsertIdentity_consistent consistent fitting

theorem ensureIdentityForUser_keepsBridge {s : Db} {user : User} (present : user ∈ s.users)
    (now : Int) : KeepsBridge (ensureIdentityForUser user.id user.username now) s := by
  intro consistent
  have kept := keepsBridge_upsertIdentity (consistent.fitting_derived present now)
  refine ((Prog.keeps_bind _ _ _).mpr ⟨kept, fun _ _ _ => ?_⟩) consistent
  exact Prog.keeps_ret _ _

theorem createPendingIdentity_keepsBridge {s : Db} {username : String} (id : Haruspex.Uuid)
    (now : Int) (free : ∀ user ∈ s.users, user.username ≠ username) :
    KeepsBridge (createPendingIdentity id username now) s := by
  refine (Prog.keeps_bind _ _ _).mpr ⟨keepsBridge_upsertIdentity ?_, fun _ _ _ => ?_⟩
  · exact fun user present carries => absurd (Option.some.inj carries).symm (free user present)
  · exact Prog.keeps_ret _ _

@[simp] theorem ensuredUser_keepsBridge (userId : Nat) (s : Db) :
    KeepsBridge (ensuredUser userId) s := by
  simp only [ensuredUser, Prog.keeps_bind, Prog.keeps_mapError, Prog.keeps_ofOption, Prog.pure_def,
    Prog.keeps_ret, keepsBridge_query, true_and, Prog.reaches_issue, Prog.reaches_ofOption]
  rintro _ _ ⟨_, _, ⟨⟩⟩ user _ ⟨_, found, rfl⟩
  refine ⟨keepsBridge_ask _ _ (by simp), ?_⟩
  rintro now _ ⟨_, _, ⟨⟩⟩
  exact ⟨ensureIdentityForUser_keepsBridge (Db.findUserById_eq_some.mp found).1 _,
    fun _ _ _ => trivial⟩

@[simp] theorem linkTarget_keepsBridge (now : Int) (target : Option Nat) (s : Db) :
    KeepsBridge (UserRepository.linkTarget now target) s := by
  cases target with
  | none => exact Prog.keeps_ret _ _
  | some userId =>
    simp only [UserRepository.linkTarget, Prog.keeps_bind, Prog.keeps_mapError,
      Prog.keeps_ofOption, Prog.pure_def, Prog.keeps_ret, keepsBridge_query, true_and,
      Prog.reaches_issue, Prog.reaches_ofOption]
    rintro _ _ ⟨_, _, ⟨⟩⟩ user _ ⟨_, found, rfl⟩
    exact ⟨ensureIdentityForUser_keepsBridge (Db.findUserById_eq_some.mp found).1 _,
      fun _ _ _ => trivial⟩

@[simp] theorem linkIdentityToGrimoireUser_keepsBridge (identityId : Haruspex.Uuid) (userId : Nat)
    (s : Db) : KeepsBridge (linkIdentityToGrimoireUser identityId userId) s := by
  simp only [linkIdentityToGrimoireUser, Prog.keeps_bind, Prog.reaches_issue, Prog.pure_def,
    Prog.keeps_ret]
  refine ⟨keepsBridge_ask _ _ (by simp), ?_⟩
  rintro _ _ ⟨consistent, _, ⟨⟩⟩
  simp only [Haruspex.Cmd.exec]
  cases found : s.stores.getIdentity identityId with
  | none =>
    simp only [Option.elim_none, Prog.reaches_issue]
    refine ⟨keepsBridge_ask _ _ (by simp), ?_⟩
    rintro now _ ⟨_, _, ⟨⟩⟩
    exact ⟨keepsBridge_upsertIdentity (by rintro user present ⟨⟩), fun _ _ _ => trivial⟩
  | some existing =>
    obtain ⟨known, rfl⟩ := (Table.get_eq_some _ _ _).mp found
    simp only [Option.elim_some, Prog.keeps_ret, true_and]
    rintro createdAt _ ⟨_, _, ⟨⟩⟩
    exact ⟨keepsBridge_upsertIdentity fun user present carries =>
      consistent.bridged user present existing known carries, fun _ _ _ => trivial⟩

namespace UserService

variable {fits : {β : Type} → Cmd β → Db → Prop} {inv : Db → Prop} {reply : Reply User}

theorem getUser_reaches {userId : Nat}
    {s t : Db} (reached : (getUser userId).Reaches fits inv s reply t) :
    t = s ∧ reply.data ∈ s.users ∧ reply.data.id = userId := by
  have ran := reached.2.2
  simp only [getUser, Prog.run_bind, Prog.run_issue, Prog.run_ofOption, Prog.pure_def] at ran
  have answer : (Machine.exec (Cmd.users (.findUserById userId)) s).1 = s.findUserById userId := rfl
  rw [answer] at ran
  cases found : s.findUserById userId with
  | none => simp [found] at ran
  | some user =>
    simp only [found, Option.elim_some, Prog.run_ret, Prod.mk.injEq, Except.ok.injEq] at ran
    obtain ⟨rfl, rfl⟩ := ran
    exact ⟨rfl, Db.findUserById_eq_some.mp found⟩

theorem run_getUserByUsername (username : String) (s : Db) :
    (getUserByUsername username).run s =
      match s.findUserByUsername username with
      | some user => (.ok ⟨"User found", user⟩, s)
      | none => (.error (failed "User not found" (.userNotFoundByUsername username)), s) := by
  simp only [getUserByUsername, Prog.run_bind, Prog.run_issue, Prog.run_ofOption, Prog.pure_def,
    machine_exec, Cmd.exec, UserCmd.exec]
  cases s.findUserByUsername username <;> rfl

theorem getUserByUsername_reaches {username : String} {s t : Db}
    (reached : (getUserByUsername username).Reaches fits inv s reply t) :
    t = s ∧ reply.data ∈ s.users := by
  have ran := reached.2.2
  rw [run_getUserByUsername] at ran
  cases found : s.findUserByUsername username with
  | none => simp [found] at ran
  | some user =>
    simp only [found, Prod.mk.injEq, Except.ok.injEq] at ran
    obtain ⟨rfl, rfl⟩ := ran
    exact ⟨rfl, (Db.mem_of_findUserByUsername found).1⟩

theorem findUserByNodeId_ends (nodeId : String) (s : Db) :
    (UserRepository.findUserByNodeId nodeId).Ends (fun _ _ => True) s fun result t =>
      t = s ∧ ∀ user, result = .ok (some user) → user ∈ s.users := by
  simp only [UserRepository.findUserByNodeId, Prog.ends_bind, Prog.ends_issue, Prog.pure_def]
  intro _
  split
  · simp only [grimoireUserIdForIdentity, Prog.ends_bind, Prog.ends_issue, Prog.pure_def,
      Prog.ends_ret]
    intro _
    split
    · simp only [Prog.ends_bind, Prog.ends_issue, Prog.ends_ret]
      refine fun _ => ⟨rfl, fun user found => ?_⟩
      have known := (Option.filter_eq_some_iff.mp (Except.ok.inj found)).1
      exact (Db.findUserById_eq_some.mp known).1
    · exact ⟨rfl, by simp⟩
  · exact ⟨rfl, by simp⟩

theorem getUserByNodeId_reaches {nodeId : String} {s t : Db}
    (reached : (getUserByNodeId nodeId).Reaches fits inv s reply t) :
    t = s ∧ reply.data ∈ s.users := by
  have ran := reached.2.2
  simp only [getUserByNodeId, Prog.run_bind, Prog.run_mapError, Prog.run_ofOption, Prog.pure_def]
    at ran
  have found := Prog.ends_true.mp (findUserByNodeId_ends nodeId s)
  rcases answer : (UserRepository.findUserByNodeId nodeId).run s with ⟨_ | _ | user, u⟩
  · simp [answer, Except.mapError] at ran
  · simp [answer, Except.mapError] at ran
  · simp only [answer, Except.mapError, Option.elim_some, Prog.run_ret, Prod.mk.injEq,
      Except.ok.injEq] at ran found
    obtain ⟨rfl, rfl⟩ := ran
    exact ⟨found.1, found.2 user rfl⟩

end UserService

namespace Webauthn

@[simp] theorem ensurePendingIdentityForNewRegistration_keepsBridge (username : String) (now : Int)
    (s : Db) : KeepsBridge (ensurePendingIdentityForNewRegistration username now) s := by
  simp only [ensurePendingIdentityForNewRegistration, Prog.keeps_bind, Prog.keeps_result,
    Prog.keeps_require, Prog.keeps_mapError, Prog.reaches_require, Prog.reaches_issue,
    Prog.pure_def, Prog.keeps_ret]
  refine ⟨by simp, fun known t looked => ⟨trivial, ?_⟩⟩
  rintro _ _ ⟨_, refused, rfl⟩
  refine ⟨keepsBridge_ask _ _ (by simp), ?_⟩
  rintro id _ ⟨_, _, ⟨⟩⟩
  have ran := looked.2.2
  rw [Prog.run_result, UserService.run_getUserByUsername] at ran
  cases found : s.findUserByUsername username with
  | some user =>
    simp only [found, Prod.mk.injEq, Except.ok.injEq] at ran
    obtain ⟨rfl, rfl⟩ := ran
    cases refused
  | none =>
    simp only [found, Prod.mk.injEq] at ran
    obtain ⟨_, rfl⟩ := ran
    exact ⟨createPendingIdentity_keepsBridge _ now (Db.findUserByUsername_eq_none.mp found),
      fun _ _ _ => trivial⟩

@[simp] theorem accountLinkIdentity_keepsBridge (invite : InviteCode) (username : String)
    (now : Int) (s : Db) : KeepsBridge (accountLinkIdentity invite username now) s := by
  simp only [accountLinkIdentity, Prog.keeps_bind, Prog.keeps_mapError, Prog.keeps_ofOption,
    Prog.keeps_require, Prog.reaches_ofOption, Prog.reaches_mapError, Prog.reaches_require]
  refine ⟨trivial, ?_⟩
  rintro targetUserId _ ⟨_, _, rfl⟩
  refine ⟨by simp, fun reply t found => ?_⟩
  obtain ⟨rfl, present, _⟩ := UserService.getUser_reaches found
  refine ⟨trivial, ?_⟩
  rintro _ _ ⟨_, _, rfl⟩
  exact ensureIdentityForUser_keepsBridge present now

@[simp] theorem knownNodeIdentity_keepsBridge (nodeId username : String) (now : Int) (s : Db) :
    KeepsBridge (knownNodeIdentity nodeId username now) s := by
  simp only [knownNodeIdentity, Prog.keeps_bind, Prog.keeps_mapError, Prog.keeps_result,
    Prog.keeps_require, Prog.reaches_mapError, Prog.reaches_require, Prog.pure_def, Prog.keeps_ret]
  refine ⟨by simp, fun known t _ => ⟨trivial, ?_⟩⟩
  rintro _ _ ⟨_, _, rfl⟩
  refine ⟨by simp, fun reply u found => ?_⟩
  obtain ⟨rfl, present⟩ := UserService.getUserByNodeId_reaches found
  refine ⟨trivial, ?_⟩
  rintro _ _ ⟨_, _, rfl⟩
  exact ⟨ensureIdentityForUser_keepsBridge present now, fun _ _ _ => trivial⟩

@[simp] theorem loginIdentity_keepsBridge (username : Option String) (now : Int) (s : Db) :
    KeepsBridge (loginIdentity username now) s := by
  simp only [loginIdentity]
  split
  · simp only [Prog.keeps_bind, Prog.keeps_mapError, Prog.reaches_mapError, Prog.pure_def,
      Prog.keeps_ret]
    refine ⟨by simp, fun reply t looked => ?_⟩
    obtain ⟨rfl, present⟩ := UserService.getUserByUsername_reaches looked
    exact ⟨ensureIdentityForUser_keepsBridge present now, fun _ _ _ => trivial⟩
  · exact Prog.keeps_ret _ _

end Webauthn

/-! Every other program is built from these. -/

namespace UserRepository

@[simp] theorem setApiKey_keepsBridge (userId : Nat) (apiKey : String) (s : Db) :
    KeepsBridge (setApiKey userId apiKey) s := by
  simp [setApiKey]

@[simp] theorem createInviteCode_keepsBridge (code : String) (request : CreateInviteCodeRequest) (s
    : Db) :
    KeepsBridge (createInviteCode code request) s := by
  simp [createInviteCode]

@[simp] theorem useInviteCode_keepsBridge (code : String) (usedById : Nat) (s : Db) :
    KeepsBridge (useInviteCode code usedById) s := by
  simp [useInviteCode]

@[simp] theorem upsertPeerNode_keepsBridge (userId : Nat) (nodeId : String) (instanceName : Option
    String) (s : Db) :
    KeepsBridge (upsertPeerNode userId nodeId instanceName) s := by
  simp [upsertPeerNode]

@[simp] theorem reassignPeerNodeUser_keepsBridge (nodeId : String) (userId : Nat) (s : Db) :
    KeepsBridge (reassignPeerNodeUser nodeId userId) s := by
  simp [reassignPeerNodeUser]

end UserRepository

namespace UserService

open UserRepository

@[simp] theorem linkAccount_keepsBridge (code : String) (invite : InviteCode) (s : Db) :
    KeepsBridge (linkAccount code invite) s := by
  simp [linkAccount]

@[simp] theorem registerAccount_keepsBridge (request : CreateUserRequest) (invite : Option
    InviteCode) (s : Db) :
    KeepsBridge (registerAccount request invite) s := by
  obtain ⟨username, role, code⟩ := request
  cases code <;> simp [registerAccount]

@[simp] theorem registerUser_keepsBridge (request : CreateUserRequest) (s : Db) :
    KeepsBridge (registerUser request) s := by
  simp only [registerUser, Prog.keeps_bind]
  refine ⟨by simp, fun invite t _ => ?_⟩
  split <;> simp

@[simp] theorem generateApiKey_keepsBridge (userId : Nat) (apiKey : String) (s : Db) :
    KeepsBridge (generateApiKey userId apiKey) s := by
  simp [generateApiKey]

@[simp] theorem revokeApiKey_keepsBridge (userId : Nat) (s : Db) :
    KeepsBridge (revokeApiKey userId) s := by
  simp [revokeApiKey]

@[simp] theorem ensureApiKey_keepsBridge (user : User) (apiKey : String) (s : Db) :
    KeepsBridge (ensureApiKey user apiKey) s := by
  simp [ensureApiKey]

@[simp] theorem createInvites_keepsBridge (request : CreateInviteCodeRequest) (codes : List String)
    (s : Db) :
    KeepsBridge (createInvites request codes) s := by
  induction codes generalizing s with
  | nil => exact Prog.keeps_ret _ _
  | cons code rest ih => simp [createInvites, ih]

@[simp] theorem generateInviteCodes_keepsBridge (request : CreateInviteCodeRequest) (codes : List
    String) (requestingUser : User) (s : Db) :
    KeepsBridge (generateInviteCodes request codes requestingUser) s := by
  simp [generateInviteCodes]

@[simp] theorem createPlayerPairingCode_keepsBridge (grantsRole : UserRole) (maxUses : Int) (code :
    String) (s : Db) :
    KeepsBridge (createPlayerPairingCode grantsRole maxUses code) s := by
  simp [createPlayerPairingCode]

@[simp] theorem generateSelfAccountLink_keepsBridge (userId : Nat) (code : String) (s : Db) :
    KeepsBridge (generateSelfAccountLink userId code) s := by
  simp [generateSelfAccountLink]

@[simp] theorem createAccountLinkCodeInternal_keepsBridge (userId : Nat) (code : String) (s : Db) :
    KeepsBridge (createAccountLinkCodeInternal userId code) s := by
  simp [createAccountLinkCodeInternal]

@[simp] theorem markInviteUsed_keepsBridge (code : String) (usedById : Nat) (s : Db) :
    KeepsBridge (markInviteUsed code usedById) s := by
  simp [markInviteUsed]

@[simp] theorem syncKnown_keepsBridge (userId : Nat) (username message apiKey : String) (s : Db) :
    KeepsBridge (syncKnown userId username message apiKey) s := by
  simp [syncKnown]

@[simp] theorem linkFederated_keepsBridge (existing : User) (username haruspexUserId apiKey :
    String) (s : Db) :
    KeepsBridge (linkFederated existing username haruspexUserId apiKey) s := by
  simp [linkFederated]

@[simp] theorem syncByUsername_keepsBridge (username haruspexUserId : String) (role : UserRole)
    (apiKey : String) (s : Db) :
    KeepsBridge (syncByUsername username haruspexUserId role apiKey) s := by
  simp only [syncByUsername, Prog.keeps_bind, keepsBridge_query, true_and]
  intro existing t _
  cases existing <;> simp

@[simp] theorem syncFederatedUser_keepsBridge (username haruspexUserId : String) (role : UserRole)
    (apiKey : String) (s : Db) :
    KeepsBridge (syncFederatedUser username haruspexUserId role apiKey) s := by
  simp only [syncFederatedUser, Prog.keeps_bind, keepsBridge_query, true_and]
  intro existing t _
  cases existing with
  | some existing => simp
  | none =>
    simp only [Prog.keeps_bind, keepsBridge_query, true_and]
    intro deleted t _
    split <;> simp

@[simp] theorem upsertPeerNode_keepsBridge (userId : Nat) (nodeId : String) (instanceName : Option
    String) (s : Db) :
    KeepsBridge (upsertPeerNode userId nodeId instanceName) s := by
  simp [upsertPeerNode]

@[simp] theorem addPeerNode_keepsBridge (userId : Nat) (nodeId : String) (instanceName : Option
    String) (s : Db) :
    KeepsBridge (addPeerNode userId nodeId instanceName) s := by
  simp [addPeerNode]

@[simp] theorem reassignPeerNodeUser_keepsBridge (nodeId : String) (userId : Nat) (s : Db) :
    KeepsBridge (reassignPeerNodeUser nodeId userId) s := by
  simp [reassignPeerNodeUser]

@[simp] theorem getApiKeyForPeer_keepsBridge (nodeId : String) (apiKey : String) (s : Db) :
    KeepsBridge (getApiKeyForPeer nodeId apiKey) s := by
  simp only [getApiKeyForPeer, Prog.keeps_bind]
  refine ⟨by simp, fun found t _ => ⟨by simp, fun user u _ => ?_⟩⟩
  split <;> simp

end UserService

namespace Knock

open UserService

@[simp] theorem createAccount_keepsBridge (policy : GrimoireKnockPolicy) (username : String) (s :
    Db) :
    KeepsBridge (createAccount policy username) s := by
  simp [createAccount]

@[simp] theorem resolveUser_keepsBridge (policy : GrimoireKnockPolicy) (username : String) (s : Db)
    :
    KeepsBridge (resolveUser policy username) s := by
  obtain ⟨role, usernameOverride, existingUserId⟩ := policy
  cases existingUserId with
  | some userId => simp [resolveUser]
  | none =>
    simp only [resolveUser, Prog.keeps_bind]
    refine ⟨by simp, fun existing t _ => ?_⟩
    cases existing <;> simp

@[simp] theorem onAccept_keepsBridge (policy : GrimoireKnockPolicy) (knock : Haruspex.KnockRecord)
    (s : Db) :
    KeepsBridge (onAccept policy knock) s := by
  simp only [onAccept]
  split <;> simp

@[simp] theorem acceptPending_keepsBridge (id : Haruspex.Uuid) (request : ProcessKnockRequest)
    (adminUserId : String) (record : Haruspex.KnockRecord) (s : Db) :
    KeepsBridge (acceptPending id request adminUserId record) s := by
  simp [acceptPending]

@[simp] theorem acceptKnock_keepsBridge (id : Haruspex.Uuid) (request : ProcessKnockRequest)
    (adminUserId : String) (s : Db) :
    KeepsBridge (acceptKnock id request adminUserId) s := by
  simp [acceptKnock]

end Knock

namespace Webauthn

open UserService

@[simp] theorem codeIdentity_keepsBridge (code username : String) (now : Int) (s : Db) :
    KeepsBridge (codeIdentity code username now) s := by
  simp [codeIdentity]

@[simp] theorem httpIdentity_keepsBridge (inviteCode : Option String) (username : String) (now :
    Int) (s : Db) :
    KeepsBridge (httpIdentity inviteCode username now) s := by
  cases inviteCode <;> simp [httpIdentity]

@[simp] theorem p2pIdentity_keepsBridge (inviteCode nodeId : Option String) (username : String) (now
    : Int) (s : Db) :
    KeepsBridge (p2pIdentity inviteCode nodeId username now) s := by
  cases inviteCode <;> cases nodeId <;> simp [p2pIdentity]

@[simp] theorem finishAccountLink_keepsBridge (identityId : Haruspex.Uuid) (username : String)
    (inviteCode : Option String) (s : Db) :
    KeepsBridge (finishAccountLink identityId username inviteCode) s := by
  cases inviteCode <;> simp [finishAccountLink]

@[simp] theorem finishNewUser_keepsBridge (identityId : Haruspex.Uuid) (username : String)
    (inviteCode : Option String) (s : Db) :
    KeepsBridge (finishNewUser identityId username inviteCode) s := by
  simp [finishNewUser]

@[simp] theorem settleRegistration_keepsBridge (outcome : Haruspex.Webauthn.RegisterFinishOutcome)
    (s : Db) :
    KeepsBridge (settleRegistration outcome) s := by
  simp [settleRegistration]

@[simp] theorem registerStart_keepsBridge (site : Site) (origin username : String) (inviteCode :
    Option String) (s : Db) :
    KeepsBridge (registerStart site origin username inviteCode) s := by
  simp [registerStart]

@[simp] theorem registerFinish_keepsBridge (site : Site) (origin : String) (nonce : Haruspex.Uuid)
    (credential : String) (s : Db) :
    KeepsBridge (registerFinish site origin nonce credential) s := by
  simp [registerFinish]

@[simp] theorem loginStart_keepsBridge (site : Site) (origin : String) (username : Option String) (s
    : Db) :
    KeepsBridge (loginStart site origin username) s := by
  simp [loginStart]

end Webauthn

namespace WebauthnP2p

open UserService Webauthn

@[simp] theorem linkPeer_keepsBridge (userId : Nat) (nodeId : Option String) (instanceName : String)
    (s : Db) :
    KeepsBridge (linkPeer userId nodeId instanceName) s := by
  cases nodeId <;> simp [linkPeer]

@[simp] theorem registerStart_keepsBridge (site : Site) (origin username : String) (inviteCode
    nodeId : Option String) (s : Db) :
    KeepsBridge (registerStart site origin username inviteCode nodeId) s := by
  simp [registerStart]

@[simp] theorem registerFinish_keepsBridge (site : Site) (origin : String) (nonce : Haruspex.Uuid)
    (credential : String) (nodeId : Option String) (s : Db) :
    KeepsBridge (registerFinish site origin nonce credential nodeId) s := by
  simp [registerFinish]

@[simp] theorem loginStart_keepsBridge (site : Site) (origin : String) (username : Option String) (s
    : Db) :
    KeepsBridge (loginStart site origin username) s := by
  simp [loginStart]

@[simp] theorem loginFinish_keepsBridge (site : Site) (origin : String) (nonce : Haruspex.Uuid)
    (credential : String) (nodeId : Option String) (s : Db) :
    KeepsBridge (loginFinish site origin nonce credential nodeId) s := by
  simp [loginFinish]

end WebauthnP2p

theorem ServiceOp.prog_keepsBridge (op : ServiceOp) (s : Db) :
    KeepsBridge (op.prog : Prog Cmd ε Unit) s := by
  cases op <;> simp [prog]

theorem Op.prog_keepsBridge (site : Webauthn.Site) (op : Op) (s : Db) :
    KeepsBridge (op.prog site : Prog Cmd ε Unit) s := by
  cases op with
  | service op => exact op.prog_keepsBridge s
  | _ => simp [prog]

/-- Every statement of the operation names accounts freely. -/
def Op.NamesFreely (site : Webauthn.Site) (op : Op) (s : Db) : Prop :=
  (op.prog site : Prog Cmd Empty Unit).Fits Cmd.NamesFreely s

instance (site : Webauthn.Site) (op : Op) (s : Db) : Decidable (op.NamesFreely site s) :=
  Prog.decidableFits (op.prog site : Prog Cmd Empty Unit) s

theorem Op.perform_consistent (site : Webauthn.Site) (op : Op) {s : Db}
    (freely : op.NamesFreely site s) (consistent : s.Consistent) :
    (op.perform site s).Consistent := by
  cases op with
  | tick now => exact ⟨consistent.distinct, consistent.bridged⟩
  | _ => exact (prog_keepsBridge site _ s consistent).run freely

/-- What the bridge promises: the identity of every account can be brought up to date, and is then
the one live identity with the account's name. -/
def Db.BridgeHolds (s : Db) : Prop :=
  ∀ user ∈ s.users, ∀ now, ∃ t,
    (ensureIdentityForUser user.id user.username now).run s =
      (.ok (identityIdForExistingUser user.id), t) ∧
    ∃! identity, identity ∈ t.stores.identities ∧ identity.deletedAt = none ∧
      identity.username = some user.username

theorem Db.usernameTaken_derived_iff (s : Db) (userId : Nat) (username : String) :
    s.stores.usernameTaken (identityIdForExistingUser userId) (some username) = false ↔
      s.NameFree userId username := by
  simp only [Stores.usernameTaken, Option.isSome_some, Bool.true_and, List.any_eq_false,
    Bool.and_eq_true, decide_eq_true_eq, NameFree, Table.mem_def]
  exact forall₂_congr fun identity _ => by tauto

theorem run_ensureIdentityForUser (userId : Nat) (username : String) (now : Int) (s : Db) :
    (ensureIdentityForUser userId username now).run s =
      if s.stores.usernameTaken (identityIdForExistingUser userId) (some username) then
        (.error (Haruspex.uniqueFailed "identityz.username"), s)
      else
        (.ok (identityIdForExistingUser userId), { s with
          stores := { s.stores with
            identities := s.stores.identities.upsert
              (s.stores.upserted (derivedIdentity userId username now)) } }) := by
  simp only [ensureIdentityForUser, Prog.run_bind, Prog.run_attempt, machine_exec, Cmd.exec,
    Haruspex.Cmd.exec, Stores.upsertIdentity, Prog.pure_def, Prog.run_ret]
  cases taken : s.stores.usernameTaken (identityIdForExistingUser userId) (some username) <;>
    simp [derivedIdentity, taken]

/-- The bridge holds exactly while no foreign identity carries the name of an account. -/
theorem Db.bridgeHolds_iff (s : Db) :
    s.BridgeHolds ↔ ∀ user ∈ s.users, s.NameFree user.id user.username := by
  refine forall₂_congr fun user _ => ⟨fun holds => ?_, fun free now => ?_⟩
  · obtain ⟨t, ran, _⟩ := holds 0
    rw [run_ensureIdentityForUser] at ran
    rw [← usernameTaken_derived_iff]
    by_contra taken
    rw [if_pos ((Bool.not_eq_false _).mp taken)] at ran
    cases ran
  · have untaken := (s.usernameTaken_derived_iff user.id user.username).mpr free
    refine ⟨_, by rw [run_ensureIdentityForUser, untaken]; rfl, ?_⟩
    refine ⟨s.stores.upserted (derivedIdentity user.id user.username now),
      ⟨(Table.mem_upsert _ _ _).mpr (.inl rfl), rfl, rfl⟩, ?_⟩
    rintro identity ⟨member, _, carries⟩
    rcases (Table.mem_upsert _ _ _).mp member with rfl | ⟨known, other⟩
    · rfl
    · exact absurd (free identity known carries) other

/-- In every run that names accounts freely the bridge holds, after every operation. -/
theorem bridge_holds_of_names_freely (site : Webauthn.Site) (ops : List Op)
    (freely : Meets (Op.perform site) (Op.NamesFreely site) ops Db.empty) (taken : List Op)
    (initial : taken <+: ops) : (serve site taken Db.empty).BridgeHolds := by
  have start : Db.empty.Consistent :=
    ⟨fun _ present => absurd present (Table.not_mem_empty _),
      fun _ present => absurd present (Table.not_mem_empty _)⟩
  have consistent := (freely.of_prefix initial).keeps
    (fun op _ freely consistent => op.perform_consistent site freely consistent) start
  exact (Db.bridgeHolds_iff _).mpr consistent.bridged

/-- A name that a renamed account has left is taken again: its identity still carries it. -/
def renamedAlice : Db :=
  serve Webauthn.trustingSite
    [.service (.registerUser ⟨"alice", none, none⟩), .service (.generateApiKey 0 "key"),
      .service (.updateUsername 0 "alicia"), .service (.registerUser ⟨"alice", none, none⟩)]
    Db.empty

theorem bridge_fails_after_rename : ¬renamedAlice.BridgeHolds := by
  rw [Db.bridgeHolds_iff]
  intro free
  have own := free ⟨1, "alice", .member, none, 0, 0, none, none⟩
    (show _ ∈ renamedAlice.users.rows by decide)
    ⟨.v5 0, some "alice", 0, some ⟨0⟩, none⟩
    (show _ ∈ renamedAlice.stores.identities.rows by decide) rfl
  exact absurd own (by decide)

/-- Accounts that keep out of each other's way. -/
theorem bridge_holds_of_three_steps :
    (serve Webauthn.trustingSite [.service (.registerUser ⟨"alice", none, none⟩),
      .service (.generateApiKey 0 "key"), .service (.updateUsername 0 "alicia")]
      Db.empty).BridgeHolds :=
  bridge_holds_of_names_freely Webauthn.trustingSite
    [.service (.registerUser ⟨"alice", none, none⟩), .service (.generateApiKey 0 "key"),
      .service (.updateUsername 0 "alicia")]
    (by decide) _ (List.prefix_refl _)

end Tomb.Grimoire
