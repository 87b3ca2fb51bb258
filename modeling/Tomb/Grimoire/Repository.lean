import Tomb.Grimoire.Database

/-! The user repository and the bridge between grimoire's user ids and haruspex's identities. -/
namespace Tomb.Grimoire

open Lib
open Haruspex (Uuid Identity StoreError DeviceNode)

/-! The bridge. -/

def identityIdForExistingUser (userId : Nat) : Uuid := .v5 userId

def derivedIdentity (userId : Nat) (username : String) (now : Int) : Identity where
  id := identityIdForExistingUser userId
  username := some username
  createdAt := now
  metadata := some ⟨userId⟩
  deletedAt := none

def ensureIdentityForUser (userId : Nat) (username : String) (now : Int) :
    Prog Cmd StoreError Uuid := do
  let _ ← tryStore (.upsertIdentity (derivedIdentity userId username now))
  return identityIdForExistingUser userId

def createPendingIdentity (identityId : Uuid) (username : String) (now : Int) :
    Prog Cmd StoreError Unit := do
  let _ ← tryStore (.upsertIdentity
    { id := identityId
      username := some username
      createdAt := now
      metadata := none
      deletedAt := none })

def linkIdentityToGrimoireUser (identityId : Uuid) (userId : Nat) :
    Prog Cmd StoreError Unit := do
  let existing ← ask (.getIdentity identityId)
  let createdAt ← existing.elim (ask .now) fun identity => pure identity.createdAt
  let _ ← tryStore (.upsertIdentity
    { id := identityId
      username := existing.bind Identity.username
      createdAt := createdAt
      metadata := some ⟨userId⟩
      deletedAt := none })

def grimoireUserIdForIdentity {ε : Type} (identityId : Uuid) : Prog Cmd ε (Option Nat) := do
  let identity ← ask (.getIdentity identityId)
  return identity.bind fun identity => identity.metadata.map Haruspex.Metadata.grimoireUserId

def ensuredUser (userId : Nat) : Auth (User × Uuid × Int) := do
  let user ← Prog.ofOption .userNotFound (← query (.findUserById userId))
  let now ← ask .now
  let identityId ← orDatabase (ensureIdentityForUser user.id user.username now)
  return (user, identityId, now)

namespace UserRepository

def deviceToPeerNode (device : DeviceNode) (userId : Nat) : UserPeerNode where
  userId := userId
  nodeId := device.nodeId
  instanceName := device.instanceName
  createdAt := device.lastSeenAt
  lastSeenAt := some device.lastSeenAt
  deletedAt := device.deletedAt

def resolveOptional {ε : Type} : Option Uuid → Prog Cmd ε (Option Nat)
  | some identityId => grimoireUserIdForIdentity identityId
  | none => pure none

def toGrimoireInviteCode (invite : Haruspex.InviteCode) : Auth InviteCode := do
  let usedById ← resolveOptional invite.usedBy
  let linkForUserId ← resolveOptional invite.linkForUserId
  return {
    id := invite.id
    code := invite.code
    createdAt := invite.createdAt
    usedAt := invite.usedAt
    usedById := usedById
    isActive := invite.isActive
    codeType := invite.codeType
    linkForUserId := linkForUserId
    linkExpiresAt := invite.linkExpiresAt
    grantsRole := .fromHaruspexRole invite.grantsRole
    maxUses := invite.maxUses
    useCount := invite.useCount }

def createUser (request : CreateUserRequest) : Auth User := do
  let now ← ask .now
  tryQuery (.insertUser request.username (request.role.getD .member) none now)

def findUserByApiKey (apiKey : String) : Auth (Option User) := do
  let some identity ← ask (.findByApiKey apiKey) | return none
  let some userId ← grimoireUserIdForIdentity identity.id | return none
  let user ← query (.findUserById userId)
  return (user.filter fun user => user.deletedAt.isNone).map fun user =>
    { user with apiKey := some apiKey }

def updateUser (userId : Nat) (request : UpdateUserRequest) : Auth User := do
  let now ← ask .now
  match request.role with
  | some role => query (.setRole userId role now)
  | none => query (.touchUser userId now)
  Prog.ofOption .userNotFound (← query (.findUserById userId))

def updateUsername (userId : Nat) (username : String) : Auth User := do
  let now ← ask .now
  tryQuery (.setUsername userId username now)
  Prog.ofOption .userNotFound (← query (.findUserById userId))

def setApiKey (userId : Nat) (apiKey : String) : Auth User := do
  let (user, identityId, now) ← ensuredUser userId
  let storedKey := if apiKey = "" then none else some apiKey
  orDatabase (tryStore (.setApiKey identityId storedKey))
  query (.touchUser userId now)
  return { user with apiKey := storedKey }

def hasApiKey (userId : Nat) : Auth Bool := ask (.hasApiKey (identityIdForExistingUser userId))

def removeDevices : List DeviceNode → Auth Unit
  | [] => pure ()
  | device :: rest => do
    if device.deletedAt.isNone then ask (.removeDevice device.nodeId)
    removeDevices rest

@[grind =] def deleteUser (userId : Nat) : Auth Unit := do
  let now ← ask .now
  query (.softDeleteUser userId now)
  removeDevices (← ask (.devicesForIdentity (identityIdForExistingUser userId)))

def restoreUser (userId : Nat) : Auth User := do
  let now ← ask .now
  query (.restoreUser userId now)
  Prog.ofOption .userNotFound (← query (.findUserById userId))

def hardDeleteUser (userId : Nat) : Auth Unit := do
  query (.deleteUserRow userId)
  ask (.hardDeleteIdentity (identityIdForExistingUser userId))

def linkTarget (now : Int) : Option Nat → Auth (Option Uuid)
  | some userId => do
    let user ← Prog.ofOption .userNotFound (← query (.findUserById userId))
    let identityId ← orDatabase (ensureIdentityForUser user.id user.username now)
    return some identityId
  | none => pure none

def createInviteCode (code : String) (request : CreateInviteCodeRequest) : Auth InviteCode := do
  let now ← ask .now
  let linkForUserId ← linkTarget now request.linkForUserId
  let id ← ask .freshId
  let created ← orDatabase (tryStore (.createInvite
    { id := id
      code := code
      codeType := request.codeType.getD .invite
      grantsRole := (request.grantsRole.getD .member).toHaruspexRole
      linkForUserId := linkForUserId
      linkExpiresAt := request.expiresHours.map fun hours => now + hours * 3600
      createdAt := now
      usedAt := none
      usedBy := none
      isActive := true
      maxUses := request.maxUses.getD 1
      useCount := 0 }))
  toGrimoireInviteCode created

def findInviteCode (code : String) : Auth (Option InviteCode) := do
  let some invite ← ask (.findByCode code) | return none
  let converted ← toGrimoireInviteCode invite
  return some converted

def useInviteCode (code : String) (usedById : Nat) : Auth Unit := do
  let (_, identityId, now) ← ensuredUser usedById
  let _ ← orDatabase (store (Haruspex.markUsed code identityId now))

def deactivateOwnInviteCode (code : String) (userId : Nat) : Auth Bool := do
  let some invite ← ask (.findByCode code) | return false
  if !invite.isActive then return false
  let owner ← resolveOptional invite.linkForUserId
  if owner ≠ some userId then return false
  ask (.deactivate code)
  return true

def updateInviteRole (code : String) (role : UserRole) : Auth Unit := do
  let _ ← orDatabase (store (Haruspex.updateGrantsRole code role.toHaruspexRole))

/-- The node id must map to an active device, whose identity must be linked to an active user. -/
def findUserByNodeId (nodeId : String) : Auth (Option User) := do
  let device ← ask (.resolveDevice nodeId)
  let some device := device.filter fun device => device.deletedAt.isNone | return none
  let some userId ← grimoireUserIdForIdentity device.identityId | return none
  let user ← query (.findUserById userId)
  return user.filter fun user => user.deletedAt.isNone

def createFederatedUser (username haruspexUserId : String) (role : UserRole) : Auth User := do
  let now ← ask .now
  tryQuery (.insertUser username role (some haruspexUserId) now)

def updateFederatedUserProfile (userId : Nat) (username : String) : Auth User := do
  let now ← ask .now
  tryQuery (.updateFederatedProfile userId username now)

def setHaruspexUserId (userId : Nat) (haruspexUserId : String) : Auth Unit := do
  let now ← ask .now
  tryQuery (.setHaruspexUserId userId haruspexUserId now)

def upsertPeerNode (userId : Nat) (nodeId : String) (instanceName : Option String) :
    Auth UserPeerNode := do
  let (_, identityId, now) ← ensuredUser userId
  let device ← orDatabase (store (Haruspex.addDevice
    ⟨identityId, nodeId, instanceName, now, now, none⟩))
  return deviceToPeerNode device userId

def getUserPeerNodes (userId : Nat) (includeDeleted : Bool) : Auth (List UserPeerNode) := do
  let devices ← ask (.devicesForIdentity (identityIdForExistingUser userId))
  return (devices.filter fun device => includeDeleted || device.deletedAt.isNone).map
    fun device => deviceToPeerNode device userId

/-- The device of a node id, if it is registered to the identity derived from the user id. -/
def ownDevice (userId : Nat) (nodeId : String) : Auth (Option DeviceNode) := do
  let device ← ask (.resolveDevice nodeId)
  return device.filter fun device =>
    decide (device.identityId = identityIdForExistingUser userId)

def removePeerNode (userId : Nat) (nodeId : String) : Auth Unit := do
  if (← ownDevice userId nodeId).isSome then ask (.removeDevice nodeId)

def restorePeerNode (userId : Nat) (nodeId : String) : Auth Unit := do
  if let some device ← ownDevice userId nodeId then
    let _ ← orDatabase (store (Haruspex.addDevice
      ⟨identityIdForExistingUser userId, nodeId, none, device.lastSeenAt, device.lastSeenAt, none⟩))

def hardDeletePeerNode (userId : Nat) (nodeId : String) : Auth Unit := do
  if (← ownDevice userId nodeId).isSome then ask (.hardDeleteDevice nodeId)

def hardDeletePeerNodeByNodeId (nodeId : String) : Auth Nat := do
  let some _ ← ask (.resolveDevice nodeId) | return 0
  ask (.hardDeleteDevice nodeId)
  return 1

def reassignPeerNodeUser (nodeId : String) (userId : Nat) : Auth Unit := do
  let (_, identityId, _) ← ensuredUser userId
  (tryStore (.forceReassignDevice nodeId identityId)).mapError fun
    | .notFound => .userNotFound
    | error => .ofStore error

def touchPeerNode (nodeId : String) : Auth Unit := do
  let device ← ask (.resolveDevice nodeId)
  let some _ := device.filter fun device => device.deletedAt.isNone | return ()
  let now ← ask .now
  ask (.touchDevice nodeId now)

end UserRepository

end Tomb.Grimoire
