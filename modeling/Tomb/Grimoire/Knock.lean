import Tomb.Grimoire.Service

/-! Knocks: unknown peers ask for access, and an admin accepts or rejects them. Accepting runs
grimoire's own side effect, an account and a peer node, before the decision is recorded. -/
namespace Tomb.Grimoire.Knock

open Lib
open Haruspex (Uuid Identity StoreError KnockRecord KnockScope KnockDecision)

inductive GrimoireError where
  | processingFailed (message : String)
  | knockNotFound (id : Uuid)
  | knockAlreadyProcessed (id : Uuid)
  deriving DecidableEq

abbrev Handler (α : Type) := Prog Cmd GrimoireError α

inductive KnockStatus where
  | pending
  | accepted
  | rejected
  deriving DecidableEq

structure KnockRequest where
  id : Uuid
  (nodeId username message : String)
  status : KnockStatus
  createdAt : Int
  processedAt : Option Int
  processedBy : Option String
  deriving DecidableEq

structure ProcessKnockRequest where
  username : Option String
  role : String
  userId : Option Nat

def scopeUsername : KnockScope → String
  | .account requestedUsername => requestedUsername.getD ""
  | .browse => ""
  | .resource _ _ => ""

def toKnockRequest (record : KnockRecord) : KnockRequest where
  id := record.id
  nodeId := record.nodeId
  username := scopeUsername record.scope
  message := record.message
  status := match record.status with
    | .pending => .pending
    | .accepted => .accepted
    | .denied => .rejected
  createdAt := record.createdAt
  processedAt := record.processedAt
  processedBy := record.processedBy

abbrev Policy (α : Type) := Prog Cmd String α

structure GrimoireKnockPolicy where
  role : UserRole
  usernameOverride : Option String
  existingUserId : Option Nat

structure KnockOutcome where
  status : Haruspex.KnockStatus
  account : Option Identity

def failureDetails (failure : Failure) : String :=
  if failure.errors.isEmpty then failure.message
  else "; ".intercalate (failure.errors.map ErrorDetail.detail)

def createAccount (policy : GrimoireKnockPolicy) (username : String) : Policy User := do
  let reply ← (UserService.registerUser ⟨username, some policy.role, none⟩).mapError fun failure =>
    "could not create user `" ++ username ++ "` from knock: " ++ failureDetails failure
  return reply.data

/-- The user to link: the one the admin picked, else the one with the username, else a new one. -/
def resolveUser (policy : GrimoireKnockPolicy) (username : String) : Policy User :=
  match policy.existingUserId with
  | some userId => do
    let reply ← (UserService.getUser userId).mapError fun _ => s!"user not found: {userId}"
    return reply.data
  | none => do
    match ← (UserService.getUserByUsername username).result with
    | .ok existing => return existing.data
    | .error _ => createAccount policy username

def onAccept (policy : GrimoireKnockPolicy) (knock : KnockRecord) : Policy KnockOutcome := do
  let requestedUsername ← match knock.scope with
    | .account requestedUsername => .ret requestedUsername
    | _ => .fail "knock scope is not an account request"
  let username := (policy.usernameOverride.or requestedUsername).getD ""
  Prog.require (username ≠ "") "no username available for this knock"
  let user ← resolveUser policy username
  let _ ← (UserService.addPeerNode user.id knock.nodeId none).mapError Failure.message
  let account ← ask (.getIdentity (identityIdForExistingUser user.id))
  return ⟨.accepted, account⟩

def createKnock (nodeId username message : String) : Service (Reply KnockRequest) := do
  Prog.require (message.utf8ByteSize ≤ 512) ⟨"message must be 512 characters or less", []⟩
  Prog.require (username ≠ "") ⟨"username is required", []⟩
  match ← ask (.findKnockByNodeId nodeId) with
  | some record => return ⟨"existing knock request", toKnockRequest record⟩
  | none =>
    let now ← ask .now
    let record ← (store (Haruspex.createKnock nodeId .inbound (.account (some username)) message
      now none)).mapError fun error => ⟨"failed to create knock: " ++ storeErrorText error, []⟩
    return ⟨"knock request created", toKnockRequest record⟩

def pendingKnock (id : Uuid) : Handler KnockRecord := do
  let record ← Prog.ofOption (.knockNotFound id) (← ask (.getKnock id))
  Prog.require (record.status = .pending) (.knockAlreadyProcessed id)
  return record

def softDeletedText (username : String) : String :=
  "cannot accept knock: node_id is linked to a soft-deleted peer (user '" ++ username ++
    "'). restore the user/peer first."

def refuseSoftDeleted (nodeId : String) : Handler Unit := do
  if let some device ← ask (.resolveDevice nodeId) then
    if let some userId ← grimoireUserIdForIdentity device.identityId then
      if let some existing ← query (.findUserById userId) then
        Prog.require (device.deletedAt.isNone && existing.deletedAt.isNone)
          (.processingFailed (softDeletedText existing.username))

def roleOf : String → UserRole
  | "admin" => .admin
  | "viewer" => .viewer
  | _ => .member

def recordOutcome (id : Uuid) (adminUserId : String) (outcome : Haruspex.KnockStatus) :
    Handler KnockRecord := do
  let now ← ask .now
  (store (Haruspex.recordDecision id ⟨adminUserId, outcome, none, now⟩)).mapError fun error =>
    .processingFailed (storeErrorText error)

def acceptPending (id : Uuid) (request : ProcessKnockRequest) (adminUserId : String)
    (record : KnockRecord) : Handler KnockRequest := do
  refuseSoftDeleted record.nodeId
  let outcome ← (onAccept ⟨roleOf request.role, request.username, request.userId⟩ record).mapError
    .processingFailed
  Prog.require (outcome.status = .accepted) (.processingFailed "failed to accept knock")
  let updated ← recordOutcome id adminUserId .accepted
  return toKnockRequest updated

def acceptKnock (id : Uuid) (request : ProcessKnockRequest) (adminUserId : String) :
    Handler KnockRequest := do
  let record ← pendingKnock id
  acceptPending id request adminUserId record

def rejectKnock (id : Uuid) (adminUserId : String) : Handler KnockRequest := do
  let _ ← pendingKnock id
  let updated ← recordOutcome id adminUserId .denied
  return toKnockRequest updated

def deleteKnock (id : Uuid) : Handler Unit :=
  (tryStore (.deleteKnock id)).mapError fun _ => .knockNotFound id

def denyAll (adminUserId : String) (now : Int) : List KnockRecord → Handler Nat
  | [] => pure 0
  | record :: rest => do
    let denied ← (store
      (Haruspex.recordDecision record.id ⟨adminUserId, .denied, none, now⟩)).result
    let later ← denyAll adminUserId now rest
    return if denied.isOk then later + 1 else later

def rejectAllKnocks (adminUserId : String) : Handler Nat := do
  let pending ← ask .listPending
  let now ← ask .now
  denyAll adminUserId now pending

end Tomb.Grimoire.Knock
