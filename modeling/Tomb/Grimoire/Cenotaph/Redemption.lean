import Tomb.Grimoire.Bridge

/-! What the service calls that redeem a pairing code do to the database. -/
namespace Tomb.Grimoire.Cenotaph
open Lib
open Haruspex (Stores)
open UserRepository UserService

theorem exec_read {β : Type} (command : Cmd β) (reads : command.effect = .read) (s : Db) :
    (command.exec s).2 = s := by
  cases command with
  | haruspex command => cases command <;> first | rfl | simp at reads
  | users command => cases command <;> first | rfl | simp at reads

theorem run_resolveOptional {ε : Type} (id : Option Haruspex.Uuid) (s : Db) :
    ∃ user, (resolveOptional id : Prog Cmd ε _).run s = (.ok user, s) := by
  cases id with
  | none => exact ⟨none, rfl⟩
  | some id => exact ⟨_, rfl⟩

theorem run_toGrimoireInviteCode (row : Haruspex.InviteCode) (s : Db) :
    ∃ invite, (toGrimoireInviteCode row).run s = (.ok invite, s) ∧ invite.code = row.code ∧
      invite.isActive = row.isActive ∧ invite.codeType = row.codeType ∧
      invite.linkExpiresAt = row.linkExpiresAt ∧
      invite.grantsRole = .fromHaruspexRole row.grantsRole ∧ invite.maxUses = row.maxUses ∧
      invite.useCount = row.useCount := by
  obtain ⟨usedBy, first⟩ := @run_resolveOptional AuthError row.usedBy s
  obtain ⟨linkFor, second⟩ := @run_resolveOptional AuthError row.linkForUserId s
  refine ⟨⟨row.id, row.code, row.createdAt, row.usedAt, usedBy, row.isActive, row.codeType, linkFor,
    row.linkExpiresAt, .fromHaruspexRole row.grantsRole, row.maxUses, row.useCount⟩, ?_, rfl, rfl,
    rfl, rfl, rfl, rfl, rfl⟩
  unfold toGrimoireInviteCode
  rw [Prog.run_bind, first]
  dsimp only
  rw [Prog.run_bind, second]
  rfl

variable {code : String} {row : Haruspex.InviteCode} {invite : InviteCode}

theorem run_findInviteCode {s : Db} (found : s.stores.invites.get code = some row)
    (shown : (toGrimoireInviteCode row).run s = (.ok invite, s)) :
    (findInviteCode code).run s = (.ok (some invite), s) := by
  unfold findInviteCode
  rw [Prog.run_bind, Prog.run_issue]
  simp only [machine_exec, Cmd.exec, Haruspex.Cmd.exec, Stores.findByCode, found]
  rw [Prog.run_bind, shown]
  rfl

theorem run_validateInviteCode {s : Db}
    (fetched : (findInviteCode code).run s = (.ok (some invite), s)) :
    (invite.isValidForUse s.stores.now = true →
      (validateInviteCode code).run s = (.ok invite, s)) ∧
    (invite.isValidForUse s.stores.now = false →
      ∃ error, (validateInviteCode code).run s = (.error error, s)) := by
  unfold validateInviteCode
  rw [Prog.run_bind, fetched]
  dsimp only
  rw [Prog.run_bind, Prog.run_ofOption]
  dsimp only [Option.elim]
  rw [Prog.run_bind, Prog.run_issue]
  dsimp only [machine_exec, Cmd.exec, Haruspex.Cmd.exec]
  constructor
  · intro valid
    rw [if_pos valid]
    rfl
  · intro invalid
    rw [if_neg (Bool.eq_false_iff.mp invalid), Prog.run_bind, Prog.run_issue]
    dsimp only [machine_exec, Cmd.exec, Haruspex.Cmd.exec]
    split
    · exact ⟨_, rfl⟩
    · split
      · exact ⟨_, rfl⟩
      · exact ⟨_, rfl⟩

theorem checkInviteCode_ok {s : Db} {reply : Reply InviteCode}
    (passed : ((checkInviteCode code).run s).1 = .ok reply) :
    ∃ row, s.stores.invites.get code = some row ∧ row.isValidForUse s.stores.now = true ∧
      (validateInviteCode code).run s = (.ok reply.data, s) ∧
      reply.data.codeType = row.codeType ∧ reply.data.maxUses = row.maxUses ∧
      reply.data.grantsRole = .fromHaruspexRole row.grantsRole ∧ reply.data.code = code := by
  cases found : s.stores.invites.get code with
  | none =>
    simp [checkInviteCode, validateInviteCode, findInviteCode, Cmd.exec, Haruspex.Cmd.exec,
      Stores.findByCode, found, Except.mapError] at passed
  | some row =>
    have named : row.code = code := ((Table.get_eq_some _ _ _).mp found).2
    obtain ⟨invite, shown, codes, active, type, expires, role, uses, count⟩ :=
      run_toGrimoireInviteCode row s
    obtain ⟨valid, invalid⟩ := run_validateInviteCode (run_findInviteCode found shown)
    unfold checkInviteCode at passed
    rw [Prog.run_bind, Prog.run_mapError] at passed
    cases usable : invite.isValidForUse s.stores.now with
    | false =>
      obtain ⟨error, refused⟩ := invalid usable
      rw [refused] at passed
      cases passed
    | true =>
      rw [valid usable] at passed
      cases passed
      refine ⟨row, rfl, ?_, valid usable, type, uses, role, codes.trans named⟩
      unfold InviteCode.isValidForUse InviteCode.isExpired at usable
      rw [active, expires, uses, count] at usable
      exact usable

structure SameAccounts (s t : Db) : Prop where
  users : t.users = s.users
  nextUser : t.nextUser = s.nextUser
  devices : t.stores.devices = s.stores.devices
  identities : t.stores.identities = s.stores.identities

theorem SameAccounts.refl (s : Db) : SameAccounts s s := ⟨rfl, rfl, rfl, rfl⟩

theorem SameAccounts.trans {s t r : Db} (first : SameAccounts s t) (second : SameAccounts t r) :
    SameAccounts s r :=
  ⟨second.users.trans first.users, second.nextUser.trans first.nextUser,
    second.devices.trans first.devices, second.identities.trans first.identities⟩

/-- The code has been used as often as before, or once more. -/
def Counts (s t : Db) (code : String) (more : Int) : Prop :=
  ∀ row, s.stores.invites.get code = some row → ∃ used, t.stores.invites.get code = some used ∧
    used.id = row.id ∧ used.maxUses = row.maxUses ∧ used.useCount = row.useCount + more

abbrev Always {ε α : Type} (p : Prog Cmd ε α) (s : Db) (post : Except ε α → Db → Prop) : Prop :=
  p.Ends (fun _ _ => True) s post

theorem stampUsed_always {usedBy : Haruspex.Uuid} (usedAt : Int) {s : Db}
    (known : s.stores.identities.get usedBy ≠ none) :
    Always (tryStore (.stampUsed code usedBy usedAt)) s fun result t =>
      result = .ok () ∧ SameAccounts s t ∧ Counts s t code 0 := by
  rw [Always, Prog.ends_attempt]
  intro _
  have there : ((s.stores.invites.get code).isSome &&
      (s.stores.identities.get usedBy).isNone) = false := by
    rw [Bool.and_eq_false_iff, Option.isNone_eq_false_iff, Option.isSome_iff_ne_none]
    exact .inr known
  simp only [machine_exec, Cmd.exec, Haruspex.Cmd.exec, Stores.stampUsed, there,
    Bool.false_eq_true, if_false]
  refine ⟨trivial, ⟨rfl, rfl, rfl, rfl⟩, fun row found => ?_⟩
  simp only [Table.get_update, found, Option.map_some, Option.some.injEq, exists_eq_left']
  split
  · exact ⟨rfl, rfl, (Int.add_zero _).symm⟩
  · exact ⟨rfl, rfl, (Int.add_zero _).symm⟩

theorem incrementUse_counts (s : Db) (code : String) :
    let t : Db := { s with stores := s.stores.incrementUse code }
    SameAccounts s t ∧ Counts s t code 1 := by
  refine ⟨⟨rfl, rfl, rfl, rfl⟩, fun row found => ?_⟩
  simp only [Stores.incrementUse, Table.get_update, found, Option.map_some, Option.some.injEq,
    exists_eq_left']
  rw [if_pos (decide_eq_true ((Table.get_eq_some _ _ _).mp found).2)]
  exact ⟨rfl, rfl, rfl⟩

theorem logRedemption_always {id usedBy : Haruspex.Uuid} (usedAt : Int) {s : Db}
    {row : Haruspex.InviteCode} (present : row ∈ s.stores.invites) (named : row.id = id)
    (known : s.stores.identities.get usedBy ≠ none) :
    Always (tryStore (.logRedemption id usedBy usedAt)) s fun result t =>
      result = .ok () ∧ SameAccounts s t ∧ t.stores.invites = s.stores.invites := by
  rw [Always, Prog.ends_attempt]
  intro _
  have fits : ((s.stores.invites.rows.all fun row => decide (row.id ≠ id)) ||
      (s.stores.identities.get usedBy).isNone) = false := by
    rw [Bool.or_eq_false_iff, List.all_eq_false, Option.isNone_eq_false_iff,
      Option.isSome_iff_ne_none]
    exact ⟨⟨row, present, fun other => of_decide_eq_true other named⟩, known⟩
  simp only [machine_exec, Cmd.exec, Haruspex.Cmd.exec, Stores.logRedemption, fits,
    Bool.false_eq_true, if_false]
  exact ⟨trivial, ⟨rfl, rfl, rfl, rfl⟩, trivial⟩

theorem markUsed_always {usedBy : Haruspex.Uuid} (usedAt : Int) {s : Db} (found : s.stores.invites.get code = some row)
    (known : s.stores.identities.get usedBy ≠ none) :
    Always (store (Haruspex.markUsed code usedBy usedAt)) s fun result t =>
      (∃ used, result = .ok used) ∧ SameAccounts s t ∧ Counts s t code 1 := by
  have counted {r : Db} (same : SameAccounts s r) (counts : Counts s r code 0) :
      Always (store (do
        Prog.issue (.incrementUse code)
        Prog.attempt (.logRedemption row.id usedBy usedAt)
        Prog.ofOption .notFound (← Prog.issue (.findByCode code)))) r fun result t =>
          (∃ used, result = .ok used) ∧ SameAccounts s t ∧ Counts s t code 1 := by
    obtain ⟨stamped, present, id, uses, count⟩ := counts row found
    obtain ⟨incremented, more⟩ := incrementUse_counts r code
    obtain ⟨used, there, usedId, usedMax, usedCount⟩ := more stamped present
    have member := ((Table.get_eq_some _ _ _).mp there).1
    have logged := @logRedemption_always row.id usedBy usedAt
      { r with stores := r.stores.incrementUse code } used member (usedId.trans id) (by
        rw [incremented.identities, same.identities]
        exact known)
    simp only [store, Always, Prog.embed_bind, Prog.embed_issue, Prog.embed_attempt,
      Prog.embed_ofOption, Prog.ends_bind, Prog.ends_issue]
    intro _
    refine logged.imp fun result t outcome => ?_
    obtain ⟨rfl, accounts, invites⟩ := outcome
    have final : t.stores.findByCode code = some used := by
      unfold Stores.findByCode
      rw [invites]
      exact there
    intro _
    simp only [machine_exec, Cmd.exec, Haruspex.Cmd.exec, final, Prog.ends_ofOption]
    refine ⟨fun last same' => ?_, fun none => (Option.some_ne_none _ none).elim⟩
    refine ⟨⟨last, rfl⟩, same.trans (incremented.trans accounts), fun first begun => ?_⟩
    rw [found] at begun
    cases begun
    exact ⟨used, invites ▸ there, usedId.trans id, usedMax.trans uses,
      by rw [usedCount, count, Int.add_zero]⟩
  unfold Haruspex.markUsed
  rw [store, Prog.embed_bind, Prog.embed_issue, Always, Prog.ends_bind, Prog.ends_issue]
  intro _
  have first : (Machine.exec (Cmd.haruspex (.findByCode code)) s) = (some row, s) := by
    show (s.stores.invites.get code, s) = _
    rw [found]
  rw [first]
  dsimp only
  rw [Prog.embed_bind, Prog.embed_ofOption, Prog.ends_bind, Prog.ends_ofOption]
  refine ⟨fun _ same => ?_, fun none => (Option.some_ne_none _ none).elim⟩
  cases same
  dsimp only
  split
  · rw [Prog.embed_bind, Prog.embed_attempt, Prog.ends_bind]
    refine (stampUsed_always usedAt known).imp fun result t outcome => ?_
    obtain ⟨rfl, same, counts⟩ := outcome
    exact counted same counts
  · exact counted (.refl s) fun first begun => ⟨first, begun, rfl, rfl, (Int.add_zero _).symm⟩

/-- The identity of the user is up to date, and nothing else is different. -/
structure Bridged (s t : Db) (user : User) : Prop where
  users : t.users = s.users
  devices : t.stores.devices = s.stores.devices
  invites : t.stores.invites = s.stores.invites
  own : ∃ identity, t.stores.identities.get (identityIdForExistingUser user.id) = some identity ∧
    identity.metadata = some ⟨user.id⟩
  others : ∀ id, id ≠ identityIdForExistingUser user.id →
    t.stores.identities.get id = s.stores.identities.get id
  free : t.NameFree user.id user.username

variable {user : User}

theorem usernameTaken_iff {s : Db} {now : Int} :
    s.stores.usernameTaken (derivedIdentity user.id user.username now).id
      (derivedIdentity user.id user.username now).username = true ↔
        ¬s.NameFree user.id user.username := by
  unfold Stores.usernameTaken Db.NameFree derivedIdentity
  rw [Option.isSome_some, Bool.true_and, List.any_eq_true, not_forall]
  refine exists_congr fun row => ?_
  rw [Bool.and_eq_true, decide_eq_true_iff, decide_eq_true_iff, Classical.not_imp,
    Classical.not_imp]
  exact and_congr_right fun _ => and_comm

theorem bridged {s : Db} (free : s.NameFree user.id user.username) (now : Int) : let row := s.stores.upserted (derivedIdentity user.id user.username now)
    let stores := { s.stores with identities := s.stores.identities.upsert row }
    Bridged s { s with stores } user := by
  refine ⟨rfl, rfl, rfl, ⟨_, (Table.get_upsert ..).trans (if_pos rfl), rfl⟩, ?_, ?_⟩
  · intro id other
    exact (Table.get_upsert ..).trans (if_neg other)
  · intro identity there carries
    rcases (Table.mem_upsert _ _ _).mp there with rfl | ⟨old, _⟩
    · rfl
    · exact free identity old carries

theorem ensuredUser_always {s : Db} (found : s.users.get user.id = some user) :
    Always (ensuredUser user.id) s fun result t =>
      (result = .ok (user, identityIdForExistingUser user.id, s.stores.now) ∧ Bridged s t user) ∨
      (¬s.NameFree user.id user.username ∧ (∃ error, result = .error error) ∧ t = s) := by
  unfold ensuredUser ensureIdentityForUser
  simp only [Prog.ends_bind, Prog.ends_issue, Prog.ends_ofOption, Prog.ends_mapError,
    Prog.ends_attempt, Always, machine_exec, Cmd.exec, UserCmd.exec, Haruspex.Cmd.exec,
    Db.findUserById, found, Option.some.injEq, forall_eq', reduceCtorEq, false_imp_iff, and_true,
    true_imp_iff]
  unfold Stores.upsertIdentity
  by_cases free : s.NameFree user.id user.username
  · rw [if_neg (fun taken => usernameTaken_iff.mp taken free)]
    exact .inl ⟨rfl, bridged free s.stores.now⟩
  · rw [if_pos (usernameTaken_iff.mpr free)]
    exact .inr ⟨free, ⟨_, rfl⟩, rfl⟩

theorem useInviteCode_always {s : Db}
    (found : s.users.get user.id = some user) (free : s.NameFree user.id user.username)
    (invite : s.stores.invites.get code = some row) :
    Always (useInviteCode code user.id) s fun result t => result = .ok () ∧ t.users = s.users ∧
      t.stores.devices = s.stores.devices ∧ t.NameFree user.id user.username ∧
      Counts s t code 1 := by
  unfold useInviteCode
  rw [Always, Prog.ends_bind]
  refine (ensuredUser_always found).imp fun result t outcome => ?_
  rcases outcome with ⟨rfl, bridged⟩ | ⟨taken, _⟩
  · dsimp only
    obtain ⟨identity, known, _⟩ := bridged.own
    have there : t.stores.invites.get code = some row := bridged.invites ▸ invite
    have identified : t.stores.identities.get (identityIdForExistingUser user.id) ≠ none := by
      rw [known]
      exact Option.some_ne_none identity
    rw [Prog.ends_bind, Prog.ends_mapError]
    refine (markUsed_always s.stores.now there identified).imp fun result r marked => ?_
    obtain ⟨⟨used, rfl⟩, same, counts⟩ := marked
    refine ⟨rfl, same.users.trans bridged.users, same.devices.trans bridged.devices, ?_, ?_⟩
    · intro identity member
      rw [same.identities] at member
      exact bridged.free identity member
    · intro first begun
      rw [← bridged.invites] at begun
      exact counts first begun
  · exact absurd free taken

theorem createUser_always (request : CreateUserRequest) (s : Db) :
    Always (createUser request) s fun result t =>
      (∃ user, result = .ok user ∧ user.id = s.nextUser ∧ user.username = request.username ∧
        user.deletedAt = none ∧ t.users.get user.id = some user ∧ t.stores = s.stores) ∨
      ((∃ error, result = .error error) ∧ t = s) := by
  unfold createUser
  rw [Always, Prog.ends_bind, Prog.ends_issue]
  intro _
  dsimp only [machine_exec, Cmd.exec, Haruspex.Cmd.exec]
  rw [Prog.ends_attempt]
  intro _
  dsimp only [machine_exec, Cmd.exec, UserCmd.exec]
  unfold Db.insertUser
  dsimp only
  split
  · exact .inr ⟨⟨_, rfl⟩, rfl⟩
  · split
    · exact .inr ⟨⟨_, rfl⟩, rfl⟩
    · split
      · rename_i users inserted
        refine .inl ⟨_, rfl, rfl, rfl, rfl, ?_, rfl⟩
        exact (Table.get_insert _ _ _ inserted _).trans (if_pos rfl)
      · exact .inr ⟨⟨_, rfl⟩, rfl⟩

structure Registered (s t : Db) (code : String) (user : User) : Prop where
  id : user.id = s.nextUser
  live : user.deletedAt = none
  stored : t.users.get user.id = some user
  devices : t.stores.devices = s.stores.devices
  free : t.NameFree user.id user.username
  counts : Counts s t code 1

def Nameable (s : Db) (username : String) : Prop :=
  validateUsername username = .ok () ∧ s.findUserByUsername username = none

instance (s : Db) (username : String) : Decidable (Nameable s username) :=
  match valid : validateUsername username with
  | .ok _ => decidable_of_iff ((s.findUserByUsername username).isNone = true) (by
      simp [Nameable, valid])
  | .error _ => .isFalse fun ⟨named, _⟩ => by simp [valid] at named

theorem registerUser_always {s : Db} {username : String} (checked : (validateInviteCode code).run s = (.ok invite, s))
    (type : invite.codeType = .invite) (found : s.stores.invites.get code = some row)
    (free : Nameable s username → s.NameFree s.nextUser username) :
    Always (registerUser ⟨username, none, some code⟩) s fun result t =>
      (∃ reply, result = .ok reply ∧ Nameable s username ∧ Registered s t code reply.data) ∨
      ((∃ error, result = .error error) ∧ t = s) := by
  have presented : (presentedCode (some code)).run s = (.ok (some invite), s) := by
    unfold presentedCode
    rw [Prog.run_bind, Prog.run_mapError, checked]
    rfl
  have ordinary : invite.isAccountLinkCode = false := by
    unfold InviteCode.isAccountLinkCode
    rw [type]
    rfl
  unfold registerUser
  rw [Always, Prog.ends_bind]
  refine Prog.ends_true.mpr ?_
  rw [presented]
  dsimp only
  rw [ordinary]
  simp only [Bool.false_eq_true, if_false]
  unfold registerAccount
  rw [Prog.ends_bind, Prog.ends_mapError, Prog.ends_ofExcept]
  cases valid : validateUsername username with
  | error error => exact .inr ⟨⟨_, rfl⟩, rfl⟩
  | ok checked =>
    dsimp only [Except.mapError]
    rw [Prog.ends_bind, Prog.ends_issue]
    intro _
    dsimp only [machine_exec, Cmd.exec, UserCmd.exec]
    rw [Prog.ends_bind, Prog.ends_require]
    refine ⟨fun absent => ?_, fun _ => .inr ⟨⟨_, rfl⟩, rfl⟩⟩
    have nameable : Nameable s username := ⟨valid, Option.isNone_iff_eq_none.mp absent⟩
    dsimp only
    rw [Prog.ends_bind, Prog.ends_require]
    refine ⟨fun _ => ?_, fun _ => .inr ⟨⟨_, rfl⟩, rfl⟩⟩
    dsimp only
    rw [Prog.ends_bind, Prog.ends_mapError]
    refine (createUser_always _ s).imp fun result t created => ?_
    rcases created with ⟨user, rfl, id, name, live, stored, stores⟩ | ⟨⟨error, rfl⟩, rfl⟩
    · dsimp only [Except.mapError]
      have open' : t.NameFree user.id user.username := by
        unfold Db.NameFree
        rw [stores, id, name]
        exact free nameable
      have there : t.stores.invites.get code = some row := stores ▸ found
      rw [Prog.ends_bind, Prog.ends_mapError]
      refine (useInviteCode_always stored open' there).imp fun result r used => ?_
      obtain ⟨rfl, users, devices, named, counts⟩ := used
      dsimp only [Except.mapError]
      refine .inl ⟨_, rfl, nameable, id, live, users ▸ stored, devices.trans (stores ▸ rfl), named, ?_⟩
      intro first begun
      exact counts first (stores ▸ begun)
    · exact .inr ⟨⟨_, rfl⟩, rfl⟩

def userOfNode (s : Db) (peer : String) : Option User :=
  ((s.stores.devices.get peer).filter (·.deletedAt.isNone)).bind fun device =>
    (s.stores.identities.get device.identityId).bind fun identity =>
      identity.metadata.bind fun metadata =>
        (s.users.get metadata.grimoireUserId).filter (·.deletedAt.isNone)

theorem run_findUserByNodeId (s : Db) (peer : String) :
    (findUserByNodeId peer).run s = (.ok (userOfNode s peer), s) := by
  unfold findUserByNodeId grimoireUserIdForIdentity userOfNode
  rw [Prog.run_bind, Prog.run_issue]
  dsimp only [machine_exec, Cmd.exec, Haruspex.Cmd.exec, Stores.resolveDevice]
  cases (s.stores.devices.get peer).filter (·.deletedAt.isNone) with
  | none => rfl
  | some device =>
    dsimp only [Option.bind]
    rw [Prog.run_bind, Prog.run_bind, Prog.run_issue]
    dsimp only [machine_exec, Cmd.exec, Haruspex.Cmd.exec, Stores.getIdentity]
    cases s.stores.identities.get device.identityId with
    | none => rfl
    | some identity =>
      dsimp only [Option.bind]
      cases identity.metadata with
      | none => rfl
      | some metadata => rfl

theorem getUserByNodeId_ok {s : Db} {peer : String} :
    (∃ reply, ((getUserByNodeId peer).run s).1 = .ok reply ∧ reply.data = user) ↔
      userOfNode s peer = some user := by
  unfold getUserByNodeId
  rw [Prog.run_bind, Prog.run_mapError, run_findUserByNodeId]
  cases userOfNode s peer with
  | none =>
    refine iff_of_false ?_ (Option.some_ne_none user).symm
    rintro ⟨reply, found, _⟩
    cases found
  | some found =>
    constructor
    · rintro ⟨reply, told, rfl⟩
      cases told
      rfl
    · intro same
      cases same
      exact ⟨_, rfl, rfl⟩

theorem userOfNode_eq_some {s : Db} {peer : String} :
    userOfNode s peer = some user ↔ ∃ device, s.stores.devices.get peer = some device ∧
      device.deletedAt = none ∧ ∃ identity, s.stores.identities.get device.identityId = some identity ∧
        identity.metadata = some ⟨user.id⟩ ∧ s.users.get user.id = some user ∧
        user.deletedAt = none := by
  unfold userOfNode
  simp only [Option.bind_eq_some_iff, Option.filter_eq_some_iff, Option.isNone_iff_eq_none]
  constructor
  · rintro ⟨device, ⟨found, live⟩, identity, known, metadata, told, stored, alive⟩
    have same : metadata.grimoireUserId = user.id :=
      ((Table.get_eq_some _ _ _).mp stored).2.symm
    rw [same] at stored
    refine ⟨device, found, live, identity, known, told.trans (congrArg some ?_), stored, alive⟩
    cases metadata
    exact congrArg _ same
  · rintro ⟨device, found, live, identity, known, told, stored, alive⟩
    exact ⟨device, ⟨found, live⟩, identity, known, _, told, stored, alive⟩

theorem SameAccounts.userOfNode {s t : Db} (same : SameAccounts s t) (peer : String) :
    userOfNode t peer = Cenotaph.userOfNode s peer := by
  unfold Cenotaph.userOfNode
  rw [same.devices, same.identities, same.users]

/-- A node is refused where another identity has it; else it is the identity's, and live. -/
structure Added (device : Haruspex.DeviceNode) (s t : Stores) : Prop where
  invites : t.invites = s.invites
  identities : t.identities = s.identities
  devices : (∃ existing, s.devices.get device.nodeId = some existing ∧
      existing.identityId ≠ device.identityId ∧ t.devices = s.devices) ∨
    ∃ row, t.devices.get device.nodeId = some row ∧ row.identityId = device.identityId ∧
      row.deletedAt = none

theorem stores_addDevice {device : Haruspex.DeviceNode} {s : Stores}
    (live : device.deletedAt = none) (known : s.identities.get device.identityId ≠ none) :
    Added device s (s.addDevice device).2 := by
  unfold Stores.addDevice
  cases found : s.devices.get device.nodeId with
  | some existing =>
    dsimp only
    by_cases own : existing.identityId = device.identityId
    · rw [if_neg (not_not.mpr own)]
      refine ⟨rfl, rfl, .inr ?_⟩
      simp only [Table.get_update, found, Option.map_some, Option.some.injEq, exists_eq_left']
      rw [if_pos (decide_eq_true ((Table.get_eq_some _ _ _).mp found).2)]
      exact ⟨own, rfl⟩
    · rw [if_pos own]
      exact ⟨rfl, rfl, .inl ⟨existing, found, own, rfl⟩⟩
  | none =>
    dsimp only
    rw [if_neg (fun absent => known (Option.isNone_iff_eq_none.mp absent))]
    exact ⟨rfl, rfl, .inr ⟨device, (Table.get_upsert ..).trans (if_pos rfl), rfl, live⟩⟩

theorem addDevice_always {device : Haruspex.DeviceNode} {s : Db} (live : device.deletedAt = none)
    (known : s.stores.identities.get device.identityId ≠ none) :
    Always (store (Haruspex.addDevice device)) s fun _ t =>
      t.users = s.users ∧ Added device s.stores t.stores := by
  unfold Haruspex.addDevice
  rw [store, Prog.embed_bind, Prog.embed_attempt, Always, Prog.ends_bind, Prog.ends_attempt]
  intro _
  have added := stores_addDevice live known
  dsimp only [machine_exec, Cmd.exec, Haruspex.Cmd.exec]
  split
  · simp only [Prog.embed_bind, Prog.embed_issue, Prog.embed_ofOption, Prog.ends_bind,
      Prog.ends_issue, Prog.ends_ofOption]
    exact fun _ => ⟨fun _ _ => ⟨rfl, added⟩, fun _ => ⟨rfl, added⟩⟩
  · exact ⟨rfl, added⟩

theorem addPeerNode_always {s : Db} {peer : String}
    (stored : s.users.get user.id = some user) (live : user.deletedAt = none)
    (known : userOfNode s peer = some user ∨ s.NameFree user.id user.username ∧
      ∀ device ∈ s.stores.devices.get peer,
        device.identityId = identityIdForExistingUser user.id) :
    Always (addPeerNode user.id peer none) s fun _ t =>
      userOfNode t peer = some user ∧ t.users = s.users ∧
        t.stores.invites = s.stores.invites := by
  unfold UserService.addPeerNode UserRepository.upsertPeerNode
  rw [Always, Prog.ends_bind, Prog.ends_mapError, Prog.ends_bind]
  refine (ensuredUser_always stored).imp fun result t outcome => ?_
  rcases outcome with ⟨rfl, bridged⟩ | ⟨taken, ⟨error, rfl⟩, rfl⟩
  · dsimp only
    rw [Prog.ends_bind, Prog.ends_mapError]
    obtain ⟨identity, own, told⟩ := bridged.own
    have identified : t.stores.identities.get (identityIdForExistingUser user.id) ≠ none := by
      rw [own]
      exact Option.some_ne_none identity
    refine (@addDevice_always ⟨identityIdForExistingUser user.id, peer, none, s.stores.now,
      s.stores.now, none⟩ t rfl identified).imp fun result r outcome => ?_
    obtain ⟨users, added⟩ := outcome
    have rest : r.users = s.users ∧ r.stores.invites = s.stores.invites :=
      ⟨users.trans bridged.users, added.invites.trans bridged.invites⟩
    have kept : userOfNode r peer = some user := by
      refine userOfNode_eq_some.mpr ?_
      rw [added.identities, rest.1]
      rcases added.devices with ⟨existing, found, foreign, devices⟩ | ⟨row, found, id, alive⟩
      · rw [bridged.devices] at found
        rcases known with known | ⟨_, ours⟩
        · obtain ⟨device, there, alive, old, has, told, _⟩ := userOfNode_eq_some.mp known
          have same : device = existing := Option.some.inj (there.symm.trans found)
          subst same
          refine ⟨device, ?_, alive, old, ?_, told, stored, live⟩
          · rw [devices, bridged.devices]
            exact there
          · rw [bridged.others _ foreign]
            exact has
        · exact absurd (ours existing found) foreign
      · exact ⟨row, found, alive, identity, id ▸ own, told, stored, live⟩
    cases result with
    | ok device => exact ⟨kept, rest⟩
    | error error => exact ⟨kept, rest⟩
  · rcases known with known | ⟨free, _⟩
    · exact ⟨known, rfl, rfl⟩
    · exact absurd free taken

/-- The accounts are the same, and every code is there with its uses. -/
def OnlyDrawn (s t : Db) : Prop := SameAccounts s t ∧ ∀ code, Counts s t code 0

theorem OnlyDrawn.refl (s : Db) : OnlyDrawn s s :=
  ⟨.refl s, fun _ row found => ⟨row, found, rfl, rfl, (Int.add_zero _).symm⟩⟩

def draws : Set Cmd.Effect := {.read, .haruspex .freshId, .haruspex .createInvite}

theorem exec_draws {β : Type} (command : Cmd β) {s t : Db} (used : command.effect ∈ draws)
    (drawn : OnlyDrawn s t) : OnlyDrawn s (command.exec t).2 := by
  by_cases reads : command.effect = .read
  · rw [exec_read command reads]
    exact drawn
  · cases command with
    | users command => cases command <;> simp_all [draws]
    | haruspex command =>
      cases command with
      | freshId => exact ⟨drawn.1.trans ⟨rfl, rfl, rfl, rfl⟩, drawn.2⟩
      | createInvite invite =>
        show OnlyDrawn s { t with stores := (t.stores.createInvite invite).2 }
        unfold Stores.createInvite
        split
        · exact drawn
        · dsimp only
          split
          · rename_i invites inserted
            refine ⟨drawn.1.trans ⟨rfl, rfl, rfl, rfl⟩, fun code row found => ?_⟩
            obtain ⟨kept, there, same⟩ := drawn.2 code row found
            exact ⟨kept, Table.get_of_insert inserted there, same⟩
          · exact drawn
      | _ => simp_all [draws]

theorem createPlayerPairingCode_drawn (role : UserRole) (maxUses : Int) (drawn : String) (s : Db) :
    OnlyDrawn s ((createPlayerPairingCode role maxUses drawn).run s).2 := by
  have uses : (createPlayerPairingCode role maxUses drawn).Within (Cmd.Uses draws) := by
    simp [createPlayerPairingCode, createInviteCode, linkTarget, draws]
  exact @Prog.Within.run_keeps _ _ _ _ _ _ _ uses (OnlyDrawn s)
    (fun command _ used drawn => exec_draws command used drawn) s (.refl s)

end Tomb.Grimoire.Cenotaph
