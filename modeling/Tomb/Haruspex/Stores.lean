import Mathlib.Data.List.Sort
import Tomb.Haruspex.Rows
import Tomb.Lib.Table

/-! Haruspex's database: its tables, and what each sql statement or transaction of the stores does
to them. Every function here runs atomically; the stores' methods are programs over them. -/
namespace Tomb.Haruspex
open Tomb.Lib

structure Stores where
  now : Int
  serial : Nat
  identities : Table Identity.id
  devices : Table DeviceNode.nodeId
  apiKeys : Table ApiKey.identityId
  credentials : Table Credential.credentialId
  challenges : Table ChallengeRow.nonce
  invites : Table InviteCode.code
  redemptions : List Redemption
  knocks : Table KnockRecord.id

def foreignKeyFailed : StoreError := .database "FOREIGN KEY constraint failed"

def uniqueFailed (column : String) : StoreError :=
  .database ("UNIQUE constraint failed: " ++ column)

namespace Stores

def empty : Stores where
  now := 0
  serial := 0
  identities := ∅
  devices := ∅
  apiKeys := ∅
  credentials := ∅
  challenges := ∅
  invites := ∅
  redemptions := []
  knocks := ∅

def freshId (s : Stores) : Uuid × Stores := (.v4 s.serial, { s with serial := s.serial + 1 })

/-! Identities, devices and api keys. -/

def usernameTaken (s : Stores) (id : Uuid) (username : Option String) : Bool :=
  username.isSome && s.identities.rows.any fun row =>
    decide (row.id ≠ id) && decide (row.username = username)

def upserted (s : Stores) (identity : Identity) : Identity :=
  { identity with
    createdAt := (s.identities.get identity.id).elim identity.createdAt Identity.createdAt }

def upsertIdentity (s : Stores) (identity : Identity) : Except StoreError Identity × Stores :=
  if s.usernameTaken identity.id identity.username then
    (.error (uniqueFailed "identityz.username"), s)
  else
    (.ok (s.upserted identity), { s with
      identities := s.identities.upsert (s.upserted identity) })

def getIdentity (s : Stores) (id : Uuid) : Option Identity := s.identities.get id

def resolveDevice (s : Stores) (nodeId : String) : Option DeviceNode := s.devices.get nodeId

def addDevice (s : Stores) (device : DeviceNode) : Except StoreError Unit × Stores :=
  match s.devices.get device.nodeId with
  | some existing =>
    if existing.identityId ≠ device.identityId then
      (.error (.conflict ("node id " ++ device.nodeId ++
        " is already registered to a different identity")), s)
    else
      (.ok (), { s with
        devices := s.devices.update (fun row => decide (row.nodeId = device.nodeId))
          (fun row => { row with
            instanceName := device.instanceName.or row.instanceName
            lastSeenAt := device.lastSeenAt
            deletedAt := none }) fun _ => rfl })
  | none =>
    if (s.identities.get device.identityId).isNone then (.error foreignKeyFailed, s)
    else (.ok (), { s with devices := s.devices.upsert device })

def touchDevice (s : Stores) (nodeId : String) (lastSeenAt : Int) : Stores :=
  { s with
    devices := s.devices.update (fun row => decide (row.nodeId = nodeId))
      (fun row => { row with lastSeenAt := lastSeenAt }) fun _ => rfl }

def removeDevice (s : Stores) (nodeId : String) : Stores :=
  { s with
    devices := s.devices.update
      (fun row => decide (row.nodeId = nodeId) && row.deletedAt.isNone)
      (fun row => { row with deletedAt := some s.now }) fun _ => rfl }

def devicesForIdentity (s : Stores) (id : Uuid) : List DeviceNode :=
  (s.devices.select fun row => decide (row.identityId = id)).insertionSort
    fun a b => b.lastSeenAt ≤ a.lastSeenAt

def setApiKey (s : Stores) (id : Uuid) : Option String → Except StoreError Unit × Stores
  | some key =>
    if (s.identities.get id).isNone then (.error foreignKeyFailed, s)
    else if s.apiKeys.rows.any fun row => decide (row.identityId ≠ id) && decide (row.apiKey = key)
    then (.error (.conflict "api key already issued to a different identity"), s)
    else (.ok (), { s with apiKeys := s.apiKeys.upsert ⟨id, key, s.now⟩ })
  | none => (.ok (), { s with
      apiKeys := s.apiKeys.deleteWhere fun row => decide (row.identityId = id) })

def hasApiKey (s : Stores) (id : Uuid) : Bool := (s.apiKeys.get id).isSome

def findByApiKey (s : Stores) (apiKey : String) : Option Identity :=
  ((s.apiKeys.select fun row => decide (row.apiKey = apiKey)).head?).bind
    fun row => s.identities.get row.identityId

def hardDeleteDevice (s : Stores) (nodeId : String) : Stores :=
  { s with devices := s.devices.deleteWhere fun row => decide (row.nodeId = nodeId) }

/-- The foreign keys cascade: devices, credentials, api keys, the invites that link to the
identity and every redemption by it or of such an invite go too, and its stamps are cleared. -/
def hardDeleteIdentity (s : Stores) (id : Uuid) : Stores :=
  let linked := s.invites.select fun row => decide (row.linkForUserId = some id)
  { s with
    identities := s.identities.deleteWhere fun row => decide (row.id = id)
    devices := s.devices.deleteWhere fun row => decide (row.identityId = id)
    apiKeys := s.apiKeys.deleteWhere fun row => decide (row.identityId = id)
    credentials := s.credentials.deleteWhere fun row => decide (row.identityId = id)
    invites := (s.invites.deleteWhere fun row => decide (row.linkForUserId = some id)).update
      (fun row => decide (row.usedBy = some id)) (fun row => { row with usedBy := none })
      fun _ => rfl
    redemptions := s.redemptions.filter fun row =>
      decide (row.usedBy ≠ id) && !(linked.map InviteCode.id).contains row.inviteId }

def forceReassignDevice (s : Stores) (nodeId : String) (id : Uuid) :
    Except StoreError Unit × Stores :=
  if (s.devices.get nodeId).isNone then (.error .notFound, s)
  else if (s.identities.get id).isNone then (.error foreignKeyFailed, s)
  else (.ok (), { s with
    devices := s.devices.update (fun row => decide (row.nodeId = nodeId))
      (fun row => { row with identityId := id, deletedAt := none }) fun _ => rfl })

/-! Credentials. -/

def addCredential (s : Stores) (credential : Credential) :
    Except StoreError Credential × Stores :=
  if (s.identities.get credential.identityId).isNone then (.error foreignKeyFailed, s)
  else
    let row := { credential with id := .v4 s.serial, lastUsedAt := none, deletedAt := none }
    match s.credentials.insert row with
    | some credentials => (.ok row, { s with serial := s.serial + 1, credentials := credentials })
    | none => (.error (.conflict "this credential id is already registered"), s)

def getCredential (s : Stores) (credentialId : CredentialId) : Option Credential :=
  (s.credentials.get credentialId).filter fun row => row.deletedAt.isNone

def listForIdentity (s : Stores) (id : Uuid) : List Credential :=
  (s.credentials.select fun row =>
    decide (row.identityId = id) && row.deletedAt.isNone).insertionSort
      fun a b => b.createdAt ≤ a.createdAt

def touchLastUsed (s : Stores) (credentialId : CredentialId) (lastUsedAt : Int) : Stores :=
  { s with
    credentials := s.credentials.update
      (fun row => decide (row.credentialId = credentialId))
      (fun row => { row with lastUsedAt := some lastUsedAt }) fun _ => rfl }

/-! Challenges. -/

def saveChallenge (s : Stores) (args : SaveChallengeArgs) : Uuid × Stores :=
  (.v4 s.serial, { s with
    serial := s.serial + 1
    challenges := s.challenges.upsert { args with nonce := .v4 s.serial } })

/-- The transaction of `take`: purge what has expired, then hand out and delete the row if it is
of the expected kind. -/
def takeChallenge (s : Stores) (nonce : Uuid) (expectedKind : ChallengeKind) (now : Int) :
    Option Challenge × Stores :=
  let purged := s.challenges.deleteWhere fun row => decide (row.expiresAt ≤ now)
  match purged.get nonce with
  | none => (none, { s with challenges := purged })
  | some row =>
    if row.expiresAt ≤ now then (none, { s with challenges := purged })
    else if row.kind ≠ expectedKind then (none, { s with challenges := purged })
    else (some (row.toChallenge expectedKind), { s with
      challenges := purged.deleteWhere fun other => decide (other.nonce = nonce) })

/-! Invite codes. -/

def createInvite (s : Stores) (invite : InviteCode) : Except StoreError InviteCode × Stores :=
  if invite.linkForUserId.any fun id => (s.identities.get id).isNone then
    (.error foreignKeyFailed, s)
  else
    let row := { invite with usedAt := none, usedBy := none, useCount := 0 }
    match s.invites.insert row with
    | some invites => (.ok row, { s with invites := invites })
    | none => (.error (.conflict ("invite code " ++ invite.code ++ " already exists")), s)

@[grind =] def findByCode (s : Stores) (code : String) : Option InviteCode := s.invites.get code

def stampUsed (s : Stores) (code : String) (usedBy : Uuid) (usedAt : Int) :
    Except StoreError Unit × Stores :=
  if (s.invites.get code).isSome && (s.identities.get usedBy).isNone then
    (.error foreignKeyFailed, s)
  else (.ok (), { s with
    invites := s.invites.update (fun row => decide (row.code = code))
      (fun row => { row with usedAt := some usedAt, usedBy := some usedBy }) fun _ => rfl })

def incrementUse (s : Stores) (code : String) : Stores :=
  { s with
    invites := s.invites.update (fun row => decide (row.code = code))
      (fun row => { row with useCount := row.useCount + 1 }) fun _ => rfl }

def logRedemption (s : Stores) (inviteId usedBy : Uuid) (usedAt : Int) :
    Except StoreError Unit × Stores :=
  if (s.invites.rows.all fun row => decide (row.id ≠ inviteId)) ||
      (s.identities.get usedBy).isNone then (.error foreignKeyFailed, s)
  else (.ok (), { s with
    serial := s.serial + 1
    redemptions := s.redemptions ++ [⟨.v4 s.serial, inviteId, usedBy, usedAt⟩] })

def deactivate (s : Stores) (code : String) : Stores :=
  { s with
    invites := s.invites.update (fun row => decide (row.code = code))
      (fun row => { row with isActive := false }) fun _ => rfl }

def listActive (s : Stores) : List InviteCode :=
  (s.invites.select InviteCode.isActive).insertionSort fun a b => a.createdAt ≤ b.createdAt

def listAllInvites (s : Stores) : List InviteCode :=
  s.invites.rows.insertionSort fun a b => b.createdAt ≤ a.createdAt

def deactivateAllUnused (s : Stores) : Nat × Stores :=
  ((s.invites.select InviteCode.unused).length, { s with
    invites := s.invites.update InviteCode.unused (fun row => { row with isActive := false })
      fun _ => rfl })

def updateGrantsRole (s : Stores) (code : String) (role : Role) : Stores :=
  { s with
    invites := s.invites.update
      (fun row => decide (row.code = code) && row.unused)
      (fun row => { row with grantsRole := role }) fun _ => rfl }

/-! Knocks. -/

def createKnock (s : Stores) (nodeId : String) (direction : KnockDirection) (scope : KnockScope)
    (message : String) (createdAt : Int) (metadata : Option String) :
    Except StoreError Uuid × Stores :=
  if s.knocks.rows.any fun row => decide (row.nodeId = nodeId) && decide (row.scope = scope) &&
      decide (row.status = .pending) then
    (.error (.conflict ("an active knock already exists for node " ++ nodeId ++
      " + this scope")), s)
  else (.ok (.v4 s.serial), { s with
    serial := s.serial + 1
    knocks := s.knocks.upsert ⟨.v4 s.serial, nodeId, direction, scope, message, .pending, createdAt,
      none, none, [], metadata⟩ })

@[grind =] def getKnock (s : Stores) (id : Uuid) : Option KnockRecord := s.knocks.get id

def listPending (s : Stores) : List KnockRecord :=
  (s.knocks.select fun row => decide (row.status = .pending)).insertionSort
    fun a b => a.createdAt ≤ b.createdAt

def findKnockByNodeId (s : Stores) (nodeId : String) : Option KnockRecord :=
  ((s.knocks.select fun row => decide (row.nodeId = nodeId)).insertionSort
    fun a b => b.createdAt ≤ a.createdAt).head?

def decided (row : KnockRecord) (decision : KnockDecision) : KnockRecord :=
  { row with
    status := decision.outcome
    processedAt := some decision.at_
    processedBy := some decision.byNodeId
    decisions := row.decisions ++ [decision] }

/-- The transaction of `record_decision`: the decision joins the log and becomes the status,
whatever the status was before. The index on pending knocks speaks only when a decision puts a knock
back to pending beside another one of its node and scope. -/
def recordDecision (s : Stores) (id : Uuid) (decision : KnockDecision) :
    Except StoreError Unit × Stores :=
  match s.knocks.get id with
  | none => (.error .notFound, s)
  | some knock =>
    if decide (decision.outcome = .pending) && s.knocks.rows.any fun row =>
        decide (row.id ≠ id) && decide (row.nodeId = knock.nodeId) &&
          decide (row.scope = knock.scope) && decide (row.status = .pending) then
      (.error (uniqueFailed "knockz.node_id, knockz.scope_key"), s)
    else (.ok (), { s with
      knocks := s.knocks.update (fun row => decide (row.id = id)) (fun row => decided row decision)
        fun _ => rfl })

def deleteKnock (s : Stores) (id : Uuid) : Except StoreError Unit × Stores :=
  if (s.knocks.get id).isNone then (.error .notFound, s)
  else (.ok (), { s with knocks := s.knocks.deleteWhere fun row => decide (row.id = id) })

end Stores

end Tomb.Haruspex
