import Tomb.Grimoire.Cenotaph.Redemption
import Tomb.Grimoire.KnockOutages

/-! What accepting a knock does step by step: the user is chosen or created, the identity is brought
up to date, the node is linked, and the decision is recorded. -/
namespace Tomb.Grimoire.Knock

open Lib
open Haruspex (Uuid KnockRecord KnockScope)

def requestedUsername : KnockScope → Option String
  | .account requestedUsername => requestedUsername
  | _ => none

def usernameFor (policy : GrimoireKnockPolicy) (knock : KnockRecord) : String :=
  Outages.chosenUsername policy (requestedUsername knock.scope)

structure Opened (s t : Db) (username : String) (role : UserRole) (user : User) : Prop where
  absent : s.findUserByUsername username = none
  name : user.username = username
  role : user.role = role
  live : user.deletedAt = none
  stored : t.users.get user.id = some user
  others : ∀ other, other ∈ t.users ↔ other ∈ s.users ∨ other = user
  stores : t.stores = s.stores

/-- The identity of the user is up to date, and nothing else is different. -/
def IdentityMade (s t : Db) (user : User) : Prop :=
  ∃ row, row.id = identityIdForExistingUser user.id ∧ row.metadata = some ⟨user.id⟩ ∧
    row.username = some user.username ∧
    t = { s with stores := { s.stores with identities := s.stores.identities.upsert row } }

/-- The node is live and the user's, and no other device is different. -/
def NodeLinked (s t : Db) (nodeId : String) (user : User) : Prop :=
  ∃ devices, t = { s with stores := { s.stores with devices := devices } } ∧
    (∀ other, other ≠ nodeId → devices.get other = s.stores.devices.get other) ∧
    ∃ row, devices.get nodeId = some row ∧ row.deletedAt = none ∧
      row.identityId = identityIdForExistingUser user.id

/-- The knock is accepted, and nothing else is different. -/
def Decided (s t : Db) (id : Uuid) : Prop :=
  ∃ knocks, t = { s with stores := { s.stores with knocks := knocks } } ∧
    (∀ other, other ≠ id → knocks.get other = s.stores.knocks.get other) ∧
    ∃ knock, knocks.get id = some knock ∧ knock.status = .accepted

/-- The user whom the admin picked, else the one with the name, else a new one. -/
inductive Chosen (s : Db) (policy : GrimoireKnockPolicy) (username : String) : Db → User → Prop
  | picked {user : User} {userId : Nat} (named : policy.existingUserId = some userId)
      (found : s.findUserById userId = some user) : Chosen s policy username s user
  | existing {user : User} (unnamed : policy.existingUserId = none)
      (found : s.findUserByUsername username = some user) : Chosen s policy username s user
  | opened {t : Db} {user : User} (unnamed : policy.existingUserId = none)
      (opened : Opened s t username policy.role user) : Chosen s policy username t user

def Accepted (s : Db) (policy : GrimoireKnockPolicy) (knock : KnockRecord) (t : Db) : Prop :=
  ∃ user first second, Chosen s policy (usernameFor policy knock) first user ∧
    IdentityMade first second user ∧ NodeLinked second t knock.nodeId user

structure Named (policy : GrimoireKnockPolicy) (knock : KnockRecord) : Prop where
  account : ∃ requested, knock.scope = .account requested
  name : usernameFor policy knock ≠ ""

inductive Reached (s : Db) (policy : GrimoireKnockPolicy) (knock : KnockRecord) : Db → Prop
  | chosen {t : Db} {user : User} (chosen : Chosen s policy (usernameFor policy knock) t user) :
      Reached s policy knock t
  | identityMade {first t : Db} {user : User}
      (chosen : Chosen s policy (usernameFor policy knock) first user)
      (made : IdentityMade first t user) : Reached s policy knock t
  | accepted {t : Db} (accepted : Accepted s policy knock t) : Reached s policy knock t

variable {policy : GrimoireKnockPolicy}

theorem Chosen.stored {s t : Db} {username : String} {user : User}
    (chosen : Chosen s policy username t user) : t.users.get user.id = some user := by
  cases chosen with
  | picked named found =>
    obtain ⟨there, same⟩ := Db.findUserById_eq_some.mp found
    exact same ▸ found
  | existing unnamed found =>
    exact (Table.get_eq_some _ _ _).mpr ⟨(Db.mem_of_findUserByUsername found).1, rfl⟩
  | opened unnamed opened => exact opened.stored

theorem Chosen.knocks {s t : Db} {username : String} {user : User}
    (chosen : Chosen s policy username t user) : t.stores.knocks = s.stores.knocks := by
  cases chosen with
  | picked => rfl
  | existing => rfl
  | opened unnamed opened => rw [opened.stores]

theorem Accepted.knocks {s t : Db} {knock : KnockRecord}
    (accepted : Accepted s policy knock t) : t.stores.knocks = s.stores.knocks := by
  obtain ⟨user, first, second, chosen, ⟨row, _, _, _, rfl⟩, devices, rfl, _⟩ := accepted
  exact chosen.knocks

theorem Reached.knocks {s t : Db} {knock : KnockRecord}
    (reached : Reached s policy knock t) : t.stores.knocks = s.stores.knocks := by
  cases reached with
  | chosen chosen => exact chosen.knocks
  | identityMade chosen made =>
    obtain ⟨row, _, _, _, rfl⟩ := made
    exact chosen.knocks
  | accepted accepted => exact accepted.knocks

/-! The steps, on a store that may be out of order. -/

namespace Outages

theorem insertUser_opened {s t : Db} {username : String} {role : UserRole} {now : Int}
    {result : Except AuthError User} (nobody : s.findUserByUsername username = none)
    (inserted : s.insertUser username role none now = (result, t)) :
    Prog.Outcome (fun user t => Opened s t username role user) (· = s) result t := by
  unfold Db.insertUser at inserted
  dsimp only at inserted
  split at inserted
  · cases inserted
    rfl
  · split at inserted
    · cases inserted
      rfl
    · split at inserted
      · rename_i users done
        cases inserted
        refine ⟨nobody, rfl, rfl, rfl, ?_, ?_, rfl⟩
        · exact (Table.get_insert _ _ _ done _).trans (if_pos rfl)
        · exact Table.insert_eq_some _ _ _ done
      · cases inserted
        rfl

theorem createUser_leaves {username : String} (role : UserRole) {s : Db}
    (nobody : s.findUserByUsername username = none) :
    (createUser ⟨username, some role, none⟩).Leaves s
      (Prog.Outcome (fun user t => Opened s t username role user) (· = s)) :=
  Prog.leaves_bind (Prog.leaves_sure (Prog.leaves_triedOr rfl (insertUser_opened nobody rfl)))

theorem registerUser_leaves (username : String) (role : UserRole) (s : Db) :
    (registerUser username (some role)).Leaves s
      (Prog.Outcome (fun reply t => Opened s t username role reply.data) (· = s)) := by
  unfold registerUser
  refine Prog.leaves_bind (Prog.leaves_mapError ?_)
  cases UserService.validateUsername username with
  | error error => exact Prog.leaves_fail rfl
  | ok valid =>
    refine Prog.leaves_ret (Prog.leaves_bind (Prog.leaves_mapError (Prog.leaves_tried rfl ?_)))
    refine Prog.leaves_bind (Prog.leaves_require (fun absent => ?_) fun _ => rfl)
    refine Prog.leaves_bind (Prog.leaves_require (fun _ => ?_) fun _ => rfl)
    have created := createUser_leaves role (Option.isNone_iff_eq_none.mp absent)
    refine Prog.leaves_bind (Prog.leaves_mapError (created.imp fun result t outcome => ?_))
    cases result with
    | ok user => exact Prog.leaves_ret outcome
    | error error => exact outcome

theorem resolveUser_leaves (policy : GrimoireKnockPolicy) (username : String) (s : Db) :
    (resolveUser policy username).Leaves s
      (Prog.Outcome (fun user t => Chosen s policy username t user) (· = s)) := by
  unfold resolveUser
  split
  · rename_i userId named
    refine Prog.leaves_bind (Prog.leaves_mapError (Prog.leaves_bind (Prog.leaves_mapError
      (Prog.leaves_tried rfl (Prog.leaves_bind (Prog.leaves_ofOption (fun user found => ?_) ?_))))))
    · exact Prog.leaves_ret (Prog.leaves_ret (.picked named found))
    · exact fun _ => rfl
  · rename_i unnamed
    have creates : (createAccount policy username).Leaves s
        (Prog.Outcome (fun user t => Chosen s policy username t user) (· = s)) := by
      refine Prog.leaves_bind (Prog.leaves_mapError ?_)
      refine (registerUser_leaves username policy.role s).imp fun result t outcome => ?_
      cases result with
      | ok reply => exact Prog.leaves_ret (.opened unnamed outcome)
      | error failure => exact outcome
    refine Prog.leaves_bind (Prog.leaves_result (Prog.leaves_bind (Prog.leaves_mapError
      (Prog.leaves_tried creates (Prog.leaves_bind (Prog.leaves_ofOption (fun user found => ?_) ?_))))))
    · exact Prog.leaves_ret (Prog.leaves_ret (.existing unnamed found))
    · exact fun _ => creates

variable {stores : Haruspex.Stores}

theorem upsertIdentity_made {s : Db} {user : User} {now : Int}
    {result : Except Haruspex.StoreError Haruspex.Identity}
    (done : s.stores.upsertIdentity (derivedIdentity user.id user.username now) = (result, stores)) :
    Prog.Outcome (fun _ stores => IdentityMade s { s with stores } user) (· = s.stores) result
      stores := by
  unfold Haruspex.Stores.upsertIdentity at done
  split at done
  · cases done
    rfl
  · cases done
    exact ⟨_, rfl, rfl, rfl, rfl⟩

theorem ensureIdentityForUser_leaves (user : User) (now : Int) (s : Db) :
    (ensureIdentityForUser user.id user.username now).Leaves s (Prog.Outcome
      (fun id t => id = identityIdForExistingUser user.id ∧ IdentityMade s t user) (· = s)) := by
  refine Prog.leaves_bind (Prog.leaves_triedOr rfl ?_)
  dsimp only [machine_exec, Cmd.exec, Haruspex.Cmd.exec]
  cases done : s.stores.upsertIdentity (derivedIdentity user.id user.username now) with
  | mk result stores =>
    have made := upsertIdentity_made done
    cases result with
    | ok identity => exact Prog.leaves_ret ⟨rfl, made⟩
    | error error => exact congrArg (fun stores => { s with stores }) made

variable {result : Except Haruspex.StoreError Unit}

theorem stores_addDevice_linked {s : Db} {user : User} {nodeId : String} {now : Int}
    (done : s.stores.addDevice ⟨identityIdForExistingUser user.id, nodeId, none, now, now, none⟩ =
      (result, stores)) :
    Prog.Outcome (fun _ stores => NodeLinked s { s with stores } nodeId user) (· = s.stores) result
      stores := by
  unfold Haruspex.Stores.addDevice at done
  cases found : s.stores.devices.get nodeId with
  | some existing =>
    rw [found] at done
    dsimp only at done
    split at done
    · cases done
      rfl
    · rename_i own
      cases done
      refine ⟨_, rfl, fun other differs => ?_, ?_⟩
      · rw [Table.get_update]
        cases there : s.stores.devices.get other with
        | none => rfl
        | some row =>
          have named : row.nodeId = other := ((Table.get_eq_some _ _ _).mp there).2
          rw [Option.map_some, if_neg]
          exact fun same => differs (named.symm.trans (of_decide_eq_true same))
      · simp only [Table.get_update, found, Option.map_some, Option.some.injEq, exists_eq_left']
        rw [if_pos (decide_eq_true ((Table.get_eq_some _ _ _).mp found).2)]
        exact ⟨rfl, not_not.mp own⟩
  | none =>
    rw [found] at done
    dsimp only at done
    split at done
    · cases done
      rfl
    · cases done
      refine ⟨_, rfl, fun other differs => ?_, ?_⟩
      · exact (Table.get_upsert ..).trans (if_neg differs)
      · exact ⟨_, (Table.get_upsert ..).trans (if_pos rfl), rfl, rfl⟩

theorem addDevice_leaves (user : User) (nodeId : String) (now : Int) (s : Db) :
    (addDevice ⟨identityIdForExistingUser user.id, nodeId, none, now, now, none⟩).Leaves s
      (Prog.Outcome (fun _ t => NodeLinked s t nodeId user)
        fun t => t = s ∨ NodeLinked s t nodeId user) := by
  refine Prog.leaves_bind (Prog.leaves_triedOr (.inl rfl) ?_)
  dsimp only [machine_exec, Cmd.exec, Haruspex.Cmd.exec]
  cases done : s.stores.addDevice ⟨identityIdForExistingUser user.id, nodeId, none, now, now, none⟩ with
  | mk result stores =>
    have linked := stores_addDevice_linked done
    cases result with
    | ok _ =>
      refine Prog.leaves_bind (Prog.leaves_tried (.inr linked) ?_)
      exact Prog.leaves_ofOption (fun _ _ => linked) fun _ => .inr linked
    | error error => exact .inl (congrArg (fun stores => { s with stores }) linked)

theorem addPeerNode_leaves (nodeId : String) {s : Db} {user : User}
    (stored : s.users.get user.id = some user) :
    (addPeerNode user.id nodeId none).Leaves s (Prog.Outcome
      (fun _ t => ∃ made, IdentityMade s made user ∧ NodeLinked made t nodeId user)
      fun t => t = s ∨ IdentityMade s t user ∨
        ∃ made, IdentityMade s made user ∧ NodeLinked made t nodeId user) := by
  unfold addPeerNode upsertPeerNode
  refine Prog.leaves_bind (Prog.leaves_mapError (Prog.leaves_bind
    (Prog.leaves_tried (.inl rfl) (Prog.leaves_bind ?_))))
  refine Prog.leaves_ofOption (fun found same => ?_) fun none => .inl rfl
  have own : found = user := Option.some.inj (same.symm.trans stored)
  subst own
  refine Prog.leaves_bind (Prog.leaves_sure (Prog.leaves_bind (Prog.leaves_mapError ?_)))
  refine (ensureIdentityForUser_leaves found _ s).imp fun result t made => ?_
  cases result with
  | error error => exact .inl made
  | ok id =>
    obtain ⟨rfl, made⟩ := made
    refine Prog.leaves_bind (Prog.leaves_mapError ?_)
    refine (addDevice_leaves found nodeId _ t).imp fun result r linked => ?_
    cases result with
    | ok device => exact Prog.leaves_ret (Prog.leaves_ret ⟨t, made, linked⟩)
    | error error =>
      rcases linked with rfl | linked
      · exact .inr (.inl made)
      · exact .inr (.inr ⟨t, made, linked⟩)

theorem refuseSoftDeleted_leaves (nodeId : String) (s : Db) :
    (refuseSoftDeleted nodeId).Leaves s fun _ t => t = s := by
  refine Prog.leaves_bind (Prog.leaves_tried rfl ?_)
  simp only [machine_exec, Cmd.exec, Haruspex.Cmd.exec]
  cases s.stores.resolveDevice nodeId with
  | none => exact Prog.leaves_ret rfl
  | some device =>
    refine Prog.leaves_bind (Prog.leaves_mapError (Prog.leaves_bind (Prog.leaves_tried rfl
      (Prog.leaves_ret ?_))))
    simp only [machine_exec, Cmd.exec, Haruspex.Cmd.exec, Except.mapError]
    generalize (Option.bind _ _ : Option Nat) = userId
    cases userId with
    | none => exact Prog.leaves_ret rfl
    | some userId =>
      refine Prog.leaves_bind (Prog.leaves_result (Prog.leaves_bind (Prog.leaves_mapError
        (Prog.leaves_tried (Prog.leaves_ret rfl) (Prog.leaves_bind ?_)))))
      refine Prog.leaves_ofOption (fun user found => ?_) fun _ => Prog.leaves_ret rfl
      exact Prog.leaves_ret (Prog.leaves_require (fun _ => rfl) fun _ => rfl)

theorem onAccept_leaves (policy : GrimoireKnockPolicy) (knock : KnockRecord) (s : Db) :
    (onAccept policy knock).Leaves s (Prog.Outcome
      (fun outcome t => outcome.status = .accepted ∧ Named policy knock ∧ Accepted s policy knock t)
      fun t => t = s ∨ Named policy knock ∧ Reached s policy knock t) := by
  have account (requested : Option String) (scope : knock.scope = .account requested) :
      (do
        let username := chosenUsername policy requested
        Prog.require (username ≠ "") "no username available for this knock"
        let user ← resolveUser policy username
        let _ ← (addPeerNode user.id knock.nodeId none).mapError Failure.message
        let account ← ask ("failed to load identity: " ++ storeErrorText outage)
          (.getIdentity (identityIdForExistingUser user.id))
        return ⟨.accepted, account⟩ : Tries String KnockOutcome).Leaves s (Prog.Outcome
          (fun outcome t => outcome.status = .accepted ∧ Named policy knock ∧
            Accepted s policy knock t)
          fun t => t = s ∨ Named policy knock ∧ Reached s policy knock t) := by
    have same : usernameFor policy knock = chosenUsername policy requested := by
      unfold usernameFor
      rw [scope]
      rfl
    refine Prog.leaves_bind (Prog.leaves_require (fun some => ?_) fun _ => .inl rfl)
    rw [← same] at some ⊢
    have named : Named policy knock := ⟨⟨requested, scope⟩, of_decide_eq_true some⟩
    refine Prog.leaves_bind ((resolveUser_leaves policy _ s).imp fun result t chosen => ?_)
    cases result with
    | error error =>
      exact .inl chosen
    | ok user =>
      have chosen : Chosen s policy (usernameFor policy knock) t user := chosen
      refine Prog.leaves_bind (Prog.leaves_mapError ?_)
      refine (addPeerNode_leaves knock.nodeId chosen.stored).imp fun result r linked => ?_
      cases result with
      | ok node =>
        obtain ⟨second, made, linked⟩ := linked
        have accepted : Accepted s policy knock r := ⟨user, t, second, chosen, made, linked⟩
        exact Prog.leaves_bind (Prog.leaves_tried (.inr ⟨named, .accepted accepted⟩)
          (Prog.leaves_ret ⟨rfl, named, accepted⟩))
      | error failure =>
        rcases linked with rfl | made | ⟨second, made, linked⟩
        · exact .inr ⟨named, .chosen chosen⟩
        · exact .inr ⟨named, .identityMade chosen made⟩
        · exact .inr ⟨named, .accepted ⟨user, t, second, chosen, made, linked⟩⟩
  unfold onAccept
  cases scope : knock.scope with
  | account requested => exact account requested scope
  | browse => exact Prog.leaves_fail (.inl rfl)
  | resource resourceId requestedRole => exact Prog.leaves_fail (.inl rfl)

theorem recordDecision_decided {s : Db} {id : Uuid} {decision : Haruspex.KnockDecision}
    (accepts : decision.outcome = .accepted)
    (done : s.stores.recordDecision id decision = (result, stores)) :
    Prog.Outcome (fun _ stores => Decided s { s with stores } id) (· = s.stores) result stores := by
  unfold Haruspex.Stores.recordDecision at done
  cases found : s.stores.knocks.get id with
  | none =>
    rw [found] at done
    cases done
    rfl
  | some knock =>
    rw [found] at done
    dsimp only at done
    rw [accepts] at done
    cases done
    refine ⟨_, rfl, fun other differs => ?_, ?_⟩
    · refine (Table.get_update s.stores.knocks _ _ (by intro; rfl) other).trans ?_
      cases there : s.stores.knocks.get other with
      | none => rfl
      | some row =>
        have named : row.id = other := ((Table.get_eq_some _ _ _).mp there).2
        rw [Option.map_some, if_neg]
        exact fun same => differs (named.symm.trans (of_decide_eq_true same))
    · refine ⟨Haruspex.Stores.decided knock decision,
        (Table.get_update s.stores.knocks _ _ (by intro; rfl) id).trans ?_, ?_⟩
      · rw [found, Option.map_some,
          if_pos (decide_eq_true ((Table.get_eq_some _ _ _).mp found).2)]
      · exact accepts

theorem recordOutcome_leaves (id : Uuid) (adminUserId : String) (s : Db) :
    (recordOutcome id adminUserId .accepted).Leaves s (Prog.Outcome
      (fun _ t => Decided s t id) fun t => t = s ∨ Decided s t id) := by
  refine Prog.leaves_bind (Prog.leaves_sure (Prog.leaves_mapError (Prog.leaves_bind
    (Prog.leaves_triedOr (.inl rfl) ?_))))
  dsimp only [machine_exec, Cmd.exec, Haruspex.Cmd.exec]
  cases done : s.stores.recordDecision id ⟨adminUserId, .accepted, none, s.stores.now⟩ with
  | mk result stores =>
    have decided := recordDecision_decided rfl done
    cases result with
    | ok _ =>
      refine Prog.leaves_bind (Prog.leaves_tried (.inr decided) ?_)
      exact Prog.leaves_ofOption (fun _ _ => decided) fun _ => .inr decided
    | error error => exact .inl (congrArg (fun stores => { s with stores }) decided)

def policyOf (request : ProcessKnockRequest) : GrimoireKnockPolicy :=
  ⟨roleOf request.role, request.username, request.userId⟩

/-- The knock is pending, asks for an account, and there is a name for it. -/
def Acceptable (s : Db) (id : Uuid) (request : ProcessKnockRequest) (knock : KnockRecord) : Prop :=
  s.stores.getKnock id = some knock ∧ knock.status = .pending ∧ Named (policyOf request) knock

def Done (s : Db) (id : Uuid) (request : ProcessKnockRequest) (t : Db) : Prop :=
  ∃ knock before, Acceptable s id request knock ∧ Accepted s (policyOf request) knock before ∧
    Decided before t id

/-- The steps up to some point were done, and the knock was not decided. -/
def Undone (s : Db) (id : Uuid) (request : ProcessKnockRequest) (t : Db) : Prop :=
  t = s ∨ ∃ knock, Acceptable s id request knock ∧ Reached s (policyOf request) knock t

theorem Undone.knocks {s t : Db} {id : Uuid} {request : ProcessKnockRequest}
    (undone : Undone s id request t) : t.stores.knocks = s.stores.knocks := by
  rcases undone with rfl | ⟨knock, _, reached⟩
  · rfl
  · exact reached.knocks

theorem acceptKnock_leaves (id : Uuid) (request : ProcessKnockRequest) (adminUserId : String)
    (s : Db) : (acceptKnock id request adminUserId).Leaves s (Prog.Outcome
      (fun _ t => Done s id request t) fun t => Undone s id request t ∨ Done s id request t) := by
  unfold acceptKnock pendingKnock
  refine Prog.leaves_bind (Prog.leaves_bind (Prog.leaves_tried (.inl (.inl rfl))
    (Prog.leaves_bind (Prog.leaves_ofOption (fun knock found => ?_) fun _ => .inl (.inl rfl)))))
  refine Prog.leaves_bind (Prog.leaves_require (fun pending => ?_) fun _ => .inl (.inl rfl))
  have pending : knock.status = .pending := of_decide_eq_true pending
  refine Prog.leaves_ret (Prog.leaves_bind ((refuseSoftDeleted_leaves knock.nodeId s).imp ?_))
  rintro result t rfl
  cases result with
  | error error => exact .inl (.inl rfl)
  | ok _ =>
    refine Prog.leaves_bind (Prog.leaves_mapError ?_)
    refine (onAccept_leaves (policyOf request) knock t).imp fun result before outcome => ?_
    cases result with
    | error error =>
      rcases outcome with same | ⟨named, reached⟩
      · exact .inl (.inl same)
      · exact .inl (.inr ⟨knock, ⟨found, pending, named⟩, reached⟩)
    | ok outcome' =>
      obtain ⟨status, named, accepted⟩ := outcome
      refine Prog.leaves_bind (Prog.leaves_require (fun _ => ?_) fun refused => ?_)
      · refine Prog.leaves_bind ((recordOutcome_leaves id adminUserId before).imp ?_)
        intro result r decided
        have acceptable : Acceptable t id request knock := ⟨found, pending, named⟩
        cases result with
        | ok updated => exact Prog.leaves_ret ⟨knock, before, acceptable, accepted, decided⟩
        | error error =>
          rcases decided with rfl | decided
          · exact .inl (.inr ⟨knock, acceptable, .accepted accepted⟩)
          · exact .inr ⟨knock, before, acceptable, accepted, decided⟩
      · rw [status] at refused
        exact absurd refused (by decide)

end Outages

/-! The same on a store that works. -/

theorem recordOutcome_undone (id : Uuid) (adminUserId : String) (s : Db) :
    (recordOutcome id adminUserId .accepted).Ends (fun _ _ => True) s
      (Prog.Outcome (fun _ _ => True) (· = s)) := by
  simp only [recordOutcome, Haruspex.recordDecision, Prog.embed_bind, Prog.embed_attempt,
    Prog.embed_issue, Prog.embed_ofOption, Prog.ends_bind, Prog.ends_issue, Prog.ends_mapError,
    Prog.ends_attempt, Prog.ends_ofOption, machine_exec, Cmd.exec, Haruspex.Cmd.exec]
  intro _ _
  cases done : s.stores.recordDecision id ⟨adminUserId, .accepted, none, s.stores.now⟩ with
  | mk result stores =>
    have decided := Outages.recordDecision_decided rfl done
    cases result with
    | error error => exact congrArg (fun stores => { s with stores }) decided
    | ok _ =>
      intro _
      refine ⟨fun _ _ => trivial, fun none => ?_⟩
      obtain ⟨knocks, same, _, knock, found, _⟩ := decided
      have there : stores.getKnock id = some knock := by
        have stored : stores = { s.stores with knocks } := congrArg Db.stores same
        rw [stored]
        exact found
      rw [there] at none
      cases none

/-- On a store that works, a knock that is not accepted stays as it was. -/
theorem acceptKnock_undone (id : Uuid) (request : ProcessKnockRequest) (adminUserId : String)
    (s : Db) : (acceptKnock id request adminUserId).Ends (fun _ _ => True) s
      (Prog.Outcome (fun _ _ => True) (Outages.Undone s id request)) := by
  unfold acceptKnock pendingKnock acceptPending
  simp only [Prog.ends_bind, Prog.ends_issue, Prog.ends_ofOption, Prog.ends_require, Prog.pure_def,
    Prog.ends_ret, machine_exec, Cmd.exec, Haruspex.Cmd.exec]
  intro _
  refine ⟨fun knock found => ⟨fun pending => ?_, fun _ => .inl rfl⟩, fun _ => .inl rfl⟩
  have refused := (Outages.refuseSoftDeleted_leaves knock.nodeId s).reliable
  rw [Outages.refuseSoftDeleted_reliable] at refused
  have same : (refuseSoftDeleted knock.nodeId).Ends (fun _ _ => True) s fun _ t => t = s :=
    Prog.ends_true.mpr refused
  refine same.imp ?_
  rintro result t rfl
  cases result with
  | error error => exact .inl rfl
  | ok _ =>
    have accepts := (Outages.onAccept_leaves (Outages.policyOf request) knock t).reliable
    rw [Outages.onAccept_reliable] at accepts
    rw [Prog.ends_mapError]
    refine (Prog.ends_true.mpr accepts).imp fun result before outcome => ?_
    cases result with
    | error error =>
      rcases outcome with same | ⟨named, reached⟩
      · exact .inl same
      · exact .inr ⟨knock, ⟨found, of_decide_eq_true pending, named⟩, reached⟩
    | ok outcome' =>
      obtain ⟨status, named, accepted⟩ := outcome
      refine ⟨fun _ => ?_, fun refused => ?_⟩
      · refine (recordOutcome_undone id adminUserId before).imp fun result r decided => ?_
        cases result with
        | ok updated => trivial
        | error error =>
          cases decided
          exact .inr ⟨knock, ⟨found, of_decide_eq_true pending, named⟩, .accepted accepted⟩
      · rw [status] at refused
        exact absurd refused (by decide)

end Tomb.Grimoire.Knock
