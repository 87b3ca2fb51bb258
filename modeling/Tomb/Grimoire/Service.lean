import Tomb.Grimoire.Repository

/-! The user service: the operations that grimoire offers on accounts, invite codes and peer nodes,
with their permission checks. Random draws (api keys, invite words) are arguments. -/
namespace Tomb.Grimoire

open Lib

abbrev Service (α : Type) := Prog Cmd Failure α

abbrev orFailed {α : Type} (message : String) (p : Auth α) : Prog Cmd Failure α :=
  p.mapError (failed message)

abbrev refuse {α : Type} (message : String) (error : AuthError) : Prog Cmd Failure α :=
  .fail (failed message error)

namespace UserService

open UserRepository

def allowedChar (c : Char) : Bool := c.isAlphanum || c == '_' || c == '-'

def validateUsername (username : String) : Except AuthError Unit :=
  if username = "" then .error (.invalidUsername "Username cannot be empty")
  else if username.utf8ByteSize < 2 then
    .error (.invalidUsername "Username must be at least 2 characters")
  else if username.utf8ByteSize > 50 then
    .error (.invalidUsername "Username must be less than 50 characters")
  else if !username.toList.all allowedChar then
    .error (.invalidUsername
      "Username can only contain letters, numbers, underscore, and hyphen")
  else if username.toList.head? = some '_' ∨ username.toList.head? = some '-' then
    .error (.invalidUsername "Username cannot start with underscore or hyphen")
  else if username.toList.getLast? = some '_' ∨ username.toList.getLast? = some '-' then
    .error (.invalidUsername "Username cannot end with underscore or hyphen")
  else .ok ()

def validateInviteCode (code : String) : Auth InviteCode := do
  let invite ← Prog.ofOption (.inviteCodeNotFound code) (← findInviteCode code)
  let now ← ask .now
  if invite.isValidForUse now then
    return invite
  else
    let later ← ask .now
    if invite.isExpired later then .fail .inviteCodeExpired
    else if 0 < invite.maxUses ∧ invite.maxUses ≤ invite.useCount then
      .fail .inviteCodeAlreadyUsed
    else .fail .invalidInviteCode

def presentedCode : Option String → Service (Option InviteCode)
  | some code => do
    let invite ← orFailed "Invalid invite code" (validateInviteCode code)
    return some invite
  | none => pure none

def bootstrapRootUser (username : String) : Service (Reply User) := do
  match ← query .findFirstRootUser with
  | some existing =>
    if existing.username = username then return ⟨"Root user already exists", existing⟩
    else
      refuse "Root user already exists with different username"
        (.userAlreadyExists existing.username)
  | none =>
    orFailed "Invalid username" (.ofExcept (validateUsername username))
    let existing ← query (.findUserByUsername username)
    Prog.require existing.isNone (failed "Username already exists" (.userAlreadyExists username))
    let user ← orFailed "Failed to create root user" (createUser ⟨username, some .root, none⟩)
    return ⟨"Root user created successfully", user⟩

def linkAccount (code : String) (invite : InviteCode) : Service (Reply User) := do
  let targetUserId ← Prog.ofOption
    (failed "Account-link code has no target user" .invalidInviteCode) invite.targetUserId
  let user ← Prog.ofOption (failed "Target user not found" .userNotFound)
    (← query (.findUserById targetUserId))
  orFailed "Failed to mark invite code as used" (useInviteCode code user.id)
  return ⟨"Account linked successfully", user⟩

def registerAccount (request : CreateUserRequest) (invite : Option InviteCode) :
    Service (Reply User) := do
  orFailed "Failed to register user" (.ofExcept (validateUsername request.username))
  let existing ← query (.findUserByUsername request.username)
  Prog.require existing.isNone (failed "Username already exists" (.userAlreadyExists request.username))
  let effectiveRole := request.role.or (invite.map InviteCode.grantsRole)
  Prog.require (effectiveRole ≠ some .root)
    (failed "cannot register users with root role" .insufficientPermissions)
  let user ← orFailed "Failed to create user"
    (createUser ⟨request.username, effectiveRole, request.inviteCode⟩)
  if let some code := request.inviteCode then
    orFailed "User created but failed to mark invite code as used" (useInviteCode code user.id)
  return ⟨"User registered successfully", user⟩

def registerUser (request : CreateUserRequest) : Service (Reply User) := do
  let invite ← presentedCode request.inviteCode
  match request.inviteCode, invite with
  | some code, some invite =>
    if invite.isAccountLinkCode then linkAccount code invite
    else registerAccount request (some invite)
  | _, _ => registerAccount request invite

def getUser (userId : Nat) : Service (Reply User) := do
  let user ← Prog.ofOption (failed "User not found" .userNotFound)
    (← query (.findUserById userId))
  return ⟨"User found", user⟩

def getUserByUsername (username : String) : Service (Reply User) := do
  let user ← Prog.ofOption (failed "User not found" (.userNotFoundByUsername username))
    (← query (.findUserByUsername username))
  return ⟨"User found", user⟩

def getUserByApiKey (apiKey : String) : Service (Reply User) := do
  let found ← orFailed "Failed to get user" (findUserByApiKey apiKey)
  let user ← Prog.ofOption (failed "User not found" .invalidApiKey) found
  return ⟨"User found", user⟩

def getUserByNodeId (nodeId : String) : Service (Reply User) := do
  let found ← orFailed "Failed to find user" (findUserByNodeId nodeId)
  let user ← Prog.ofOption (failed "User not found for node_id" .userNotFound) found
  return ⟨"User found", user⟩

def adminOnly (requestingUser : User) : Service Unit :=
  Prog.require requestingUser.isAdmin (failed "Insufficient permissions" .insufficientPermissions)

def updateUser (userId : Nat) (request : UpdateUserRequest) (requestingUser : User) :
    Service (Reply User) := do
  Prog.require (request.role.isNone || requestingUser.isAdmin)
    (failed "Insufficient permissions" .insufficientPermissions)
  Prog.require (request.role ≠ some .root) (failed "cannot assign root role" .insufficientPermissions)
  let target ← getUser userId
  Prog.require (target.data.role ≠ .root) (failed "cannot modify root user" .insufficientPermissions)
  let user ← orFailed "Failed to update user" (UserRepository.updateUser userId request)
  return ⟨"User updated successfully", user⟩

def mayDelete (userId : Nat) (requestingUser : User) : Bool :=
  decide (userId = requestingUser.id) || requestingUser.isAdmin

def deleteUser (userId : Nat) (requestingUser : User) : Service (Reply Unit) := do
  Prog.require (mayDelete userId requestingUser)
    (failed "Insufficient permissions" .insufficientPermissions)
  orFailed "Failed to delete user" (UserRepository.deleteUser userId)
  return ⟨"User deleted successfully", ()⟩

def restoreUser (userId : Nat) (requestingUser : User) : Service (Reply User) := do
  adminOnly requestingUser
  let user ← orFailed "Failed to restore user" (UserRepository.restoreUser userId)
  return ⟨"User restored", user⟩

def hardDeleteUser (userId : Nat) (requestingUser : User) : Service (Reply Unit) := do
  adminOnly requestingUser
  Prog.require (userId ≠ requestingUser.id) ⟨"cannot hard-delete your own account", []⟩
  let target ← Prog.ofOption (failed "user not found" .userNotFound)
    (← query (.findUserById userId))
  Prog.require (target.role ≠ .root) ⟨"cannot hard-delete a root account", []⟩
  orFailed "failed to hard-delete user" (UserRepository.hardDeleteUser userId)
  return ⟨"user permanently deleted", ()⟩

def generateApiKey (userId : Nat) (apiKey : String) : Service (Reply User) := do
  let user ← orFailed "Failed to generate API key" (setApiKey userId apiKey)
  return ⟨"API key generated successfully", user⟩

def revokeApiKey (userId : Nat) : Service (Reply User) := do
  let user ← orFailed "Failed to revoke API key" (setApiKey userId "")
  return ⟨"API key revoked successfully", user⟩

def ensureApiKey (user : User) (apiKey : String) : Service (Reply User) := do
  if ← orFailed "failed to check for existing api key" (hasApiKey user.id) then
    return ⟨"user already has api key", user⟩
  else
    let updated ← orFailed "failed to generate api key for federated user"
      (setApiKey user.id apiKey)
    return ⟨"api key generated for federated user", updated⟩

def createInvites (request : CreateInviteCodeRequest) :
    List String → Service (List InviteCode)
  | [] => pure []
  | code :: rest => do
    let invite ← orFailed "Failed to create invite code" (createInviteCode code request)
    let invites ← createInvites request rest
    return invite :: invites

def linkTargetAllowed : Option Nat → Service Unit
  | some userId => do
    let target ← (getUser userId).mapError fun failure => ⟨"target user not found", failure.errors⟩
    Prog.require (target.data.role ≠ .root)
      (failed "cannot create account-link codes for root user" .insufficientPermissions)
  | none => pure ()

def generateInviteCodes (request : CreateInviteCodeRequest) (codes : List String)
    (requestingUser : User) : Service (Reply (List InviteCode)) := do
  adminOnly requestingUser
  Prog.require (request.grantsRole ≠ some .root)
    (failed "cannot create invite codes that grant root role" .insufficientPermissions)
  linkTargetAllowed request.linkForUserId
  let invites ← createInvites request codes
  return ⟨s!"Generated {invites.length} invite code(s)", invites⟩

def createPlayerPairingCode (grantsRole : UserRole) (maxUses : Int) (code : String) :
    Service (Reply InviteCode) := do
  Prog.require (grantsRole ≠ .root)
    (failed "cannot create player-pairing codes that grant root role" .insufficientPermissions)
  let invite ← orFailed "failed to create player pairing code"
    (createInviteCode code ⟨some .invite, none, none, some grantsRole, some maxUses⟩)
  return ⟨"player pairing code generated", invite⟩

def updateUsername (userId : Nat) (newUsername : String) : Service (Reply WhoAmIResponse) := do
  orFailed "invalid username" (.ofExcept (validateUsername newUsername))
  let existing ← query (.findUserByUsername newUsername)
  Prog.require (existing.all fun user => decide (user.id = userId))
    (failed "username taken" (.userAlreadyExists newUsername))
  let user ← orFailed "failed to update username"
    (UserRepository.updateUsername userId newUsername)
  return ⟨"username updated", ⟨user.id, user.username, user.role⟩⟩

def accountLinkRequest (userId : Nat) : CreateInviteCodeRequest :=
  ⟨some .accountLink, some userId, some 1, none, none⟩

def generateSelfAccountLink (userId : Nat) (code : String) : Service (Reply (String × Int)) := do
  let target ← (getUser userId).mapError fun failure => ⟨"user not found", failure.errors⟩
  Prog.require (target.data.role ≠ .root)
    (failed "not available for root account" .insufficientPermissions)
  let invite ← orFailed "failed to create invite code"
    (createInviteCode code (accountLinkRequest userId))
  return ⟨"account-link code generated", (code, invite.linkExpiresAt.getD 0)⟩

def createAccountLinkCodeInternal (userId : Nat) (code : String) : Service (Reply InviteCode) := do
  let _ ← (getUser userId).mapError fun failure => ⟨"user not found", failure.errors⟩
  let invite ← orFailed "failed to create invite code"
    (createInviteCode code (accountLinkRequest userId))
  return ⟨"account-link invite code created", invite⟩

def revokeOwnInviteCode (code : String) (userId : Nat) : Service (Reply Unit) := do
  let revoked ← orFailed "failed to revoke invite code" (deactivateOwnInviteCode code userId)
  Prog.require revoked ⟨"not found", [⟨"not_found", "not found",
    "invite code not found or does not belong to this user"⟩]⟩
  return ⟨"invite code revoked", ()⟩

def checkInviteCode (code : String) : Service (Reply InviteCode) := do
  let invite ← orFailed "Invalid invite code" (validateInviteCode code)
  return ⟨"Invite code is valid", invite⟩

def markInviteUsed (code : String) (usedById : Nat) : Service (Reply Unit) := do
  orFailed "failed to mark invite code as used" (useInviteCode code usedById)
  return ⟨"invite code marked as used", ()⟩

def deactivateInviteCode (code : String) (requestingUser : User) : Service (Reply Unit) := do
  adminOnly requestingUser
  ask (.deactivate code)
  return ⟨"Invite code deactivated successfully", ()⟩

def deactivateAllActiveInvites (requestingUser : User) : Service (Reply Nat) := do
  adminOnly requestingUser
  let count ← ask .deactivateAllUnused
  return ⟨s!"{count} invite code(s) deactivated", count⟩

def updateInviteRole (code : String) (role : UserRole) (requestingUser : User) :
    Service (Reply Unit) := do
  adminOnly requestingUser
  Prog.require (role ≠ .root) ⟨"Cannot create invite codes that grant root role", []⟩
  orFailed "Failed to update invite code role" (UserRepository.updateInviteRole code role)
  return ⟨"Invite code role updated successfully", ()⟩

/-- The account of a federated user that is known by its haruspex id: profile and key. -/
def syncKnown (userId : Nat) (username message apiKey : String) : Service (Reply User) := do
  let user ← orFailed message (updateFederatedUserProfile userId username)
  ensureApiKey user apiKey

def linkFederated (existing : User) (username haruspexUserId apiKey : String) :
    Service (Reply User) := do
  Prog.require existing.haruspexUserId.isNone
    (failed "username already exists with different haruspex identity"
      (.userAlreadyExists username))
  orFailed "failed to link haruspex identity" (setHaruspexUserId existing.id haruspexUserId)
  let user ← Prog.ofOption (failed "user not found after update" .userNotFound)
    (← query (.findUserById existing.id))
  ensureApiKey user apiKey

/-- No account carries the haruspex id: link the account with the username, or create one. -/
def syncByUsername (username haruspexUserId : String) (role : UserRole) (apiKey : String) :
    Service (Reply User) := do
  match ← query (.findUserByUsername username) with
  | some existing => linkFederated existing username haruspexUserId apiKey
  | none =>
    let user ← orFailed "failed to create federated user"
      (createFederatedUser username haruspexUserId role)
    ensureApiKey user apiKey

def syncFederatedUser (username haruspexUserId : String) (role : UserRole) (apiKey : String) :
    Service (Reply User) := do
  match ← query (.findUserByHaruspexId haruspexUserId false) with
  | some existing => syncKnown existing.id username "failed to update federated user" apiKey
  | none =>
    let deleted ← query (.findUserByHaruspexId haruspexUserId true)
    match deleted.filter fun user => user.deletedAt.isSome with
    | some deleted =>
      let _ ← orFailed "failed to restore deleted user" (UserRepository.restoreUser deleted.id)
      syncKnown deleted.id username "failed to update restored user" apiKey
    | none => syncByUsername username haruspexUserId role apiKey

def upsertPeerNode (userId : Nat) (nodeId : String) (instanceName : Option String) :
    Service (Reply UserPeerNode) := do
  let node ← orFailed "Failed to upsert peer node"
    (UserRepository.upsertPeerNode userId nodeId instanceName)
  return ⟨"Peer node upserted", node⟩

def addPeerNode (userId : Nat) (nodeId : String) (instanceName : Option String) :
    Service (Reply UserPeerNode) := do
  let node ← orFailed "failed to link peer node"
    (UserRepository.upsertPeerNode userId nodeId instanceName)
  return ⟨"peer node linked", node⟩

def getUserPeerNodes (userId : Nat) (includeDeleted : Bool) :
    Service (Reply (List UserPeerNode)) := do
  let nodes ← orFailed "Failed to get peer nodes"
    (UserRepository.getUserPeerNodes userId includeDeleted)
  return ⟨"Peer nodes retrieved", nodes⟩

@[grind =] def removePeerNode (userId : Nat) (nodeId : String) : Service (Reply Unit) := do
  orFailed "Failed to remove peer node" (UserRepository.removePeerNode userId nodeId)
  return ⟨"Peer node removed", ()⟩

def restorePeerNode (userId : Nat) (nodeId : String) : Service (Reply Unit) := do
  orFailed "Failed to restore peer node" (UserRepository.restorePeerNode userId nodeId)
  return ⟨"Peer node restored", ()⟩

def hardDeletePeerNode (userId : Nat) (nodeId : String) : Service (Reply Unit) := do
  orFailed "Failed to hard-delete peer node" (UserRepository.hardDeletePeerNode userId nodeId)
  return ⟨"Peer node hard-deleted", ()⟩

def hardDeletePeerNodeByNodeId (nodeId : String) : Service (Reply Nat) := do
  let count ← orFailed "Failed to hard-delete peer node"
    (UserRepository.hardDeletePeerNodeByNodeId nodeId)
  return ⟨"Peer node hard-deleted", count⟩

def reassignPeerNodeUser (nodeId : String) (userId : Nat) : Service (Reply Unit) := do
  orFailed "Failed to reassign peer node" (UserRepository.reassignPeerNodeUser nodeId userId)
  return ⟨"Peer node reassigned", ()⟩

def touchPeerNode (nodeId : String) : Service (Reply Unit) := do
  orFailed "Failed to touch peer node" (UserRepository.touchPeerNode nodeId)
  return ⟨"Peer node touched", ()⟩

def getApiKeyForPeer (nodeId : String) (apiKey : String) : Service (Reply String) := do
  let found ← orFailed "failed to find peer" (findUserByNodeId nodeId)
  let user ← Prog.ofOption (failed "peer not found" .userNotFound) found
  match user.apiKey.filter fun key => decide (key ≠ "") with
  | some key => return ⟨"api key found", key⟩
  | none =>
    let updated ← ensureApiKey user apiKey
    let key ← Prog.ofOption (failed "failed to generate api key" .insufficientPermissions)
      updated.data.apiKey
    return ⟨"api key generated", key⟩

end UserService

end Tomb.Grimoire
