import Tomb.Grimoire.Knock
import Tomb.Lib.Tried

/-! Accepting a knock on a store that may be out of order at any statement. Each function is the one
of the same name with its error paths; on a store that works they are the same. -/
namespace Tomb.Grimoire.Knock.Outages

open Lib
open Haruspex (Uuid StoreError KnockRecord DeviceNode)

abbrev Tries (ε α : Type) := Prog (Tried Cmd) ε α

def outage : StoreError := .database "disk I/O error"

abbrev ask {ε α : Type} (error : ε) (command : Haruspex.Cmd α) : Tries ε α :=
  .tried error (.haruspex command)

abbrev tryStore {α : Type} (command : Haruspex.Cmd (Except StoreError α)) : Tries StoreError α :=
  .triedOr outage (.haruspex command)

abbrev query {α : Type} (command : UserCmd α) : Tries AuthError α :=
  .tried (.ofStore outage) (.users command)

abbrev tryQuery {α : Type} (command : UserCmd (Except AuthError α)) : Tries AuthError α :=
  .triedOr (.ofStore outage) (.users command)

abbrev now {ε : Type} : Tries ε Int := .sure (.haruspex .now)

def grimoireUserIdForIdentity (identityId : Uuid) : Tries StoreError (Option Nat) := do
  let identity ← ask outage (.getIdentity identityId)
  return identity.bind fun identity => identity.metadata.map Haruspex.Metadata.grimoireUserId

def ensureIdentityForUser (userId : Nat) (username : String) (now : Int) : Tries StoreError Uuid := do
  let _ ← tryStore (.upsertIdentity (derivedIdentity userId username now))
  return identityIdForExistingUser userId

def addDevice (device : DeviceNode) : Tries StoreError DeviceNode := do
  tryStore (.addDevice device)
  Prog.ofOption .notFound (← ask outage (.resolveDevice device.nodeId))

def upsertPeerNode (userId : Nat) (nodeId : String) (instanceName : Option String) :
    Tries AuthError UserPeerNode := do
  let user ← Prog.ofOption .userNotFound (← query (.findUserById userId))
  let now ← now
  let identityId ← (ensureIdentityForUser user.id user.username now).mapError .ofStore
  let device ← (addDevice ⟨identityId, nodeId, instanceName, now, now, none⟩).mapError .ofStore
  return UserRepository.deviceToPeerNode device userId

def createUser (request : CreateUserRequest) : Tries AuthError User := do
  let now ← now
  tryQuery (.insertUser request.username (request.role.getD .member) none now)

def registerUser (username : String) (role : Option UserRole) : Tries Failure (Reply User) := do
  (Prog.ofExcept (UserService.validateUsername username)).mapError (failed "Failed to register user")
  let existing ← (query (.findUserByUsername username)).mapError
    (failed "Failed to check username availability")
  Prog.require existing.isNone (failed "Username already exists" (.userAlreadyExists username))
  Prog.require (role ≠ some .root)
    (failed "cannot register users with root role" .insufficientPermissions)
  let user ← (createUser ⟨username, role, none⟩).mapError (failed "Failed to create user")
  return ⟨"User registered successfully", user⟩

def getUser (userId : Nat) : Tries Failure (Reply User) := do
  let found ← (query (.findUserById userId)).mapError (failed "Failed to get user")
  let user ← Prog.ofOption (failed "User not found" .userNotFound) found
  return ⟨"User found", user⟩

def getUserByUsername (username : String) : Tries Failure (Reply User) := do
  let found ← (query (.findUserByUsername username)).mapError (failed "Failed to get user")
  let user ← Prog.ofOption (failed "User not found" (.userNotFoundByUsername username)) found
  return ⟨"User found", user⟩

def addPeerNode (userId : Nat) (nodeId : String) (instanceName : Option String) :
    Tries Failure (Reply UserPeerNode) := do
  let node ← (upsertPeerNode userId nodeId instanceName).mapError (failed "failed to link peer node")
  return ⟨"peer node linked", node⟩

def createAccount (policy : GrimoireKnockPolicy) (username : String) : Tries String User := do
  let reply ← (registerUser username (some policy.role)).mapError fun failure =>
    "could not create user `" ++ username ++ "` from knock: " ++ failureDetails failure
  return reply.data

def resolveUser (policy : GrimoireKnockPolicy) (username : String) : Tries String User :=
  match policy.existingUserId with
  | some userId => do
    let reply ← (getUser userId).mapError fun _ => s!"user not found: {userId}"
    return reply.data
  | none => do
    match ← (getUserByUsername username).result with
    | .ok existing => return existing.data
    | .error _ => createAccount policy username

def chosenUsername (policy : GrimoireKnockPolicy) (requestedUsername : Option String) : String :=
  (policy.usernameOverride.or requestedUsername).getD ""

def onAccept (policy : GrimoireKnockPolicy) (knock : KnockRecord) : Tries String KnockOutcome := do
  let requestedUsername ← match knock.scope with
    | .account requestedUsername => .ret requestedUsername
    | _ => .fail "knock scope is not an account request"
  let username := chosenUsername policy requestedUsername
  Prog.require (username ≠ "") "no username available for this knock"
  let user ← resolveUser policy username
  let _ ← (addPeerNode user.id knock.nodeId none).mapError Failure.message
  let account ← ask ("failed to load identity: " ++ storeErrorText outage)
    (.getIdentity (identityIdForExistingUser user.id))
  return ⟨.accepted, account⟩

def processingFailed (error : StoreError) : GrimoireError := .processingFailed (storeErrorText error)

def pendingKnock (id : Uuid) : Tries GrimoireError KnockRecord := do
  let record ← Prog.ofOption (.knockNotFound id) (← ask (processingFailed outage) (.getKnock id))
  Prog.require (record.status = .pending) (.knockAlreadyProcessed id)
  return record

/-- The device and its identity are looked up or the request fails; a lookup of the user that fails
is one that finds nobody. -/
def refuseSoftDeleted (nodeId : String) : Tries GrimoireError Unit := do
  if let some device ← ask (processingFailed outage) (.resolveDevice nodeId) then
    if let some userId ← (grimoireUserIdForIdentity device.identityId).mapError processingFailed then
      match ← (getUser userId).result with
      | .ok existing =>
        Prog.require (device.deletedAt.isNone && existing.data.deletedAt.isNone)
          (.processingFailed (softDeletedText existing.data.username))
      | .error _ => pure ()

def recordDecision (id : Uuid) (decision : Haruspex.KnockDecision) :
    Tries StoreError KnockRecord := do
  tryStore (.recordDecision id decision)
  Prog.ofOption .notFound (← ask outage (.getKnock id))

def recordOutcome (id : Uuid) (adminUserId : String) (outcome : Haruspex.KnockStatus) :
    Tries GrimoireError KnockRecord := do
  let now ← now
  (recordDecision id ⟨adminUserId, outcome, none, now⟩).mapError processingFailed

def acceptKnock (id : Uuid) (request : ProcessKnockRequest) (adminUserId : String) :
    Tries GrimoireError KnockRequest := do
  let record ← pendingKnock id
  refuseSoftDeleted record.nodeId
  let outcome ← (onAccept ⟨roleOf request.role, request.username, request.userId⟩ record).mapError
    .processingFailed
  Prog.require (outcome.status = .accepted) (.processingFailed "failed to accept knock")
  let updated ← recordOutcome id adminUserId .accepted
  return toKnockRequest updated

/-! On a store that works every function is the one of the same name. -/

theorem grimoireUserIdForIdentity_reliable (identityId : Uuid) :
    (grimoireUserIdForIdentity identityId).reliable = Grimoire.grimoireUserIdForIdentity identityId := by
  simp [grimoireUserIdForIdentity, Grimoire.grimoireUserIdForIdentity]

theorem upsertPeerNode_reliable (userId : Nat) (nodeId : String) (instanceName : Option String) :
    (upsertPeerNode userId nodeId instanceName).reliable =
      UserRepository.upsertPeerNode userId nodeId instanceName := by
  simp only [upsertPeerNode, UserRepository.upsertPeerNode, ensuredUser, ensureIdentityForUser,
    Grimoire.ensureIdentityForUser, addDevice, Haruspex.addDevice, Prog.reliable_bind,
    Prog.reliable_tried, Prog.reliable_triedOr, Prog.reliable_sure, Prog.reliable_ofOption,
    Prog.reliable_mapError, Prog.pure_def, Prog.reliable_ret, Prog.bind_assoc, Prog.ret_bind,
    Prog.embed_bind, Prog.embed_attempt, Prog.embed_issue, Prog.embed_ofOption]

theorem createAccount_reliable (policy : GrimoireKnockPolicy) (username : String) :
    (createAccount policy username).reliable = Knock.createAccount policy username := by
  simp only [createAccount, Knock.createAccount, registerUser, createUser, UserService.registerUser,
    UserService.registerAccount, UserService.presentedCode, UserRepository.createUser,
    Prog.reliable_bind, Prog.reliable_tried, Prog.reliable_triedOr, Prog.reliable_sure,
    Prog.reliable_ofExcept, Prog.reliable_require, Prog.reliable_mapError, Prog.pure_def,
    Prog.reliable_ret, Prog.ret_bind, Option.map_none, Option.or_none]
  rfl

theorem resolveUser_reliable (policy : GrimoireKnockPolicy) (username : String) :
    (resolveUser policy username).reliable = Knock.resolveUser policy username := by
  unfold resolveUser Knock.resolveUser
  cases policy.existingUserId with
  | some userId =>
    simp only [getUser, Prog.reliable_bind, Prog.reliable_mapError, Prog.reliable_tried,
      Prog.reliable_ofOption, Prog.pure_def, Prog.reliable_ret]
    rfl
  | none =>
    simp only [getUserByUsername, Prog.reliable_bind, Prog.reliable_result, Prog.reliable_mapError,
      Prog.reliable_tried, Prog.reliable_ofOption, Prog.pure_def, Prog.reliable_ret]
    refine congrArg _ (funext fun found => ?_)
    cases found with
    | ok existing => rfl
    | error failure => exact createAccount_reliable policy username

theorem onAccept_reliable (policy : GrimoireKnockPolicy) (knock : KnockRecord) :
    (onAccept policy knock).reliable = Knock.onAccept policy knock := by
  unfold onAccept Knock.onAccept
  cases knock.scope with
  | account requestedUsername =>
    simp only [addPeerNode, Prog.reliable_bind, Prog.reliable_require, Prog.reliable_mapError,
      Prog.reliable_tried, Prog.pure_def, Prog.reliable_ret, resolveUser_reliable,
      upsertPeerNode_reliable]
    rfl
  | browse => rfl
  | resource resourceId requestedRole => rfl

theorem refuseSoftDeleted_reliable (nodeId : String) :
    (refuseSoftDeleted nodeId).reliable = Knock.refuseSoftDeleted nodeId := by
  unfold refuseSoftDeleted Knock.refuseSoftDeleted
  simp only [Prog.reliable_bind, Prog.reliable_tried]
  refine congrArg _ (funext fun device => ?_)
  cases device with
  | none => rfl
  | some device =>
    simp only [Prog.reliable_bind, Prog.reliable_mapError, grimoireUserIdForIdentity_reliable]
    refine congrArg (Prog.call _) (funext fun identity => ?_)
    simp only [Prog.pure_def, Prog.bind, Prog.mapError]
    cases identity.bind fun identity => identity.metadata.map Haruspex.Metadata.grimoireUserId with
    | none => rfl
    | some userId =>
      simp only [getUser, Prog.reliable_bind, Prog.reliable_result,
        Prog.reliable_mapError, Prog.reliable_tried, Prog.reliable_ofOption]
      refine congrArg (Prog.call _) (funext fun existing => ?_)
      cases existing with
      | none => rfl
      | some existing => exact Prog.reliable_require _ _

theorem acceptKnock_reliable (id : Uuid) (request : ProcessKnockRequest) (adminUserId : String) :
    (acceptKnock id request adminUserId).reliable = Knock.acceptKnock id request adminUserId := by
  unfold acceptKnock Knock.acceptKnock Knock.acceptPending
  simp only [pendingKnock, Knock.pendingKnock, recordOutcome, Knock.recordOutcome, recordDecision,
    Haruspex.recordDecision, Prog.reliable_bind, Prog.reliable_tried, Prog.reliable_triedOr,
    Prog.reliable_ofOption, Prog.reliable_require, Prog.reliable_mapError, Prog.reliable_sure,
    Prog.pure_def, Prog.reliable_ret, refuseSoftDeleted_reliable, onAccept_reliable,
    Prog.embed_bind, Prog.embed_attempt, Prog.embed_issue, Prog.embed_ofOption]
  rfl

end Tomb.Grimoire.Knock.Outages
