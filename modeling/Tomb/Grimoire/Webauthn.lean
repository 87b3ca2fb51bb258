import Tomb.Grimoire.Service
import Tomb.Haruspex.Webauthn.Ceremony

/-! The passkey ceremonies as grimoire runs them, over http and over p2p: which identity a passkey
will belong to, and which account it ends up with. -/
namespace Tomb.Grimoire

namespace Webauthn

open Lib
open Haruspex (Uuid StoreError Identity)
open Haruspex.Webauthn (WebauthnError PasskeyRp RegisterFinishOutcome)
open UserService

/-- The server's settings: the origins that p2p callers may name, the relying party of an origin,
and the challenge lifetime if one is configured. -/
structure Site where
  allowedOrigins : List String
  extractRpId : String → Option String
  passkeyRp : String → PasskeyRp
  challengeTtlMinutes : Option Nat

def Site.challengeTtlSecs (site : Site) : Int := (site.challengeTtlMinutes.getD 15 : Nat) * 60

def trustingSite : Site where
  allowedOrigins := ["any"]
  extractRpId := some
  passkeyRp _ := Haruspex.Webauthn.trustingRp
  challengeTtlMinutes := none

inductive WebauthnCeremonyError where
  | badRequest (message : String)
  | internal (message : String)

abbrev Ceremony (α : Type) := Prog Cmd WebauthnCeremonyError α

def mapWebauthnError : WebauthnError → WebauthnCeremonyError
  | .invalidChallenge => .badRequest "invalid or expired nonce"
  | .noCredentials => .badRequest "passkey authentication failed"
  | .authenticationFailed => .badRequest "passkey authentication failed"
  | .invalidCredential message => .badRequest ("invalid credential: " ++ message)
  | .ceremony message => .internal ("webauthn ceremony failed: " ++ message)
  | .store error => .internal ("auth store error: " ++ storeErrorText error)

abbrev ceremony {α : Type} (p : Haruspex.Webauthn.Ceremony α) : Ceremony α :=
  (p.embed .haruspex).mapError mapWebauthnError

abbrev attempting {α : Type} (what : String) (p : Prog Cmd StoreError α) : Ceremony α :=
  p.mapError fun error => .internal (what ++ storeErrorText error)

def relyingParty (site : Site) (origin : String) : Ceremony PasskeyRp := do
  let rpId ← Prog.ofOption (.internal "invalid origin url") (site.extractRpId origin)
  return site.passkeyRp rpId

/-! Which identity a registration is for. -/

/-- A brand-new registration: the username must be free, and the identity gets a random id, since
no account exists yet to derive one from. -/
def ensurePendingIdentityForNewRegistration (username : String) (now : Int) : Ceremony Uuid := do
  let existing ← (getUserByUsername username).result
  Prog.require (!existing.isOk) (.badRequest "username already exists")
  let id ← ask .freshId
  attempting "failed to prepare identity: " (createPendingIdentity id username now)
  return id

def accountLinkIdentity (invite : InviteCode) (username : String) (now : Int) :
    Ceremony Uuid := do
  let targetUserId ← Prog.ofOption (.badRequest "invalid invite code") invite.targetUserId
  let user ← (getUser targetUserId).mapError fun _ => .badRequest "invalid invite code"
  Prog.require (user.data.username = username) (.badRequest ("username '" ++ username ++
    "' does not match account-link target user '" ++ user.data.username ++ "'"))
  attempting "failed to prepare identity: "
    (ensureIdentityForUser user.data.id user.data.username now)

def codeIdentity (code username : String) (now : Int) : Ceremony (Uuid × Bool) := do
  let invite ← (checkInviteCode code).mapError fun _ => .badRequest "invalid invite code"
  if invite.data.isAccountLinkCode then
    let id ← accountLinkIdentity invite.data username now
    return (id, true)
  else
    let id ← ensurePendingIdentityForNewRegistration username now
    return (id, false)

def knownNodeIdentity (nodeId username : String) (now : Int) : Ceremony (Uuid × Bool) := do
  let known ← (getUserByNodeId nodeId).result
  Prog.require known.isOk
    (.badRequest "invite_code required to register a passkey for a new identity")
  let user ← (getUserByNodeId nodeId).mapError fun _ => .badRequest
    "node_id is known but not linked to a user account - use an invite code"
  Prog.require (user.data.username = username)
    (.badRequest "username does not match node's linked account")
  let id ← attempting "failed to prepare identity: "
    (ensureIdentityForUser user.data.id user.data.username now)
  return (id, false)

def httpIdentity (inviteCode : Option String) (username : String) (now : Int) :
    Ceremony (Uuid × Bool) :=
  match inviteCode with
  | some code => codeIdentity code username now
  | none => do
    let id ← ensurePendingIdentityForNewRegistration username now
    return (id, false)

def p2pIdentity (inviteCode nodeId : Option String) (username : String) (now : Int) :
    Ceremony (Uuid × Bool) :=
  match inviteCode, nodeId with
  | some code, _ => codeIdentity code username now
  | none, some nodeId => knownNodeIdentity nodeId username now
  | none, none => .fail (.badRequest "invite_code required to register a passkey")

def startRegistration (site : Site) (rp : PasskeyRp) (origin username : String)
    (inviteCode : Option String) (now : Int) (identity : Uuid × Bool) :
    Ceremony (String × Uuid) :=
  ceremony (Haruspex.Webauthn.registerStart rp origin
    { identityId := identity.1
      username := username
      isAccountLink := identity.2
      inviteCode := inviteCode
      now := now
      challengeTtlSecs := site.challengeTtlSecs })

/-! Which account a finished registration belongs to. -/

/-- An account link: the account exists, and redeeming the code is not allowed to fail it. -/
def finishAccountLink (identityId : Uuid) (username : String) (inviteCode : Option String) :
    Ceremony Nat := do
  let userId ← Prog.ofOption (.internal "identity is missing its linked grimoire user")
    (← grimoireUserIdForIdentity identityId)
  if let some code := inviteCode then
    let _ ← (registerUser ⟨username, none, some code⟩).result
  return userId

def finishNewUser (identityId : Uuid) (username : String) (inviteCode : Option String) :
    Ceremony Nat := do
  let user ← (registerUser ⟨username, none, inviteCode⟩).mapError fun failure =>
    .badRequest ((failure.errors.head?.map ErrorDetail.detail).getD "failed to create user")
  attempting "failed to link identity: " (linkIdentityToGrimoireUser identityId user.data.id)
  return user.data.id

def settleRegistration (outcome : RegisterFinishOutcome) : Ceremony (Nat × String) := do
  let identityId := outcome.credential.identityId
  let identity ← Prog.ofOption (.internal "identity vanished mid-ceremony")
    (← ask (.getIdentity identityId))
  let username := identity.username.getD ""
  let userId ← if outcome.isAccountLink then
      finishAccountLink identityId username outcome.inviteCode
    else finishNewUser identityId username outcome.inviteCode
  return (userId, username)

/-! Which identity a login is for. -/

def loginIdentity (username : Option String) (now : Int) : Ceremony (Option (Uuid × String)) :=
  match username.filter fun username => decide (username ≠ "") with
  | some username => do
    let user ← (getUserByUsername username).mapError fun _ =>
      .badRequest "passkey authentication failed"
    let id ← attempting "failed to prepare identity: "
      (ensureIdentityForUser user.data.id user.data.username now)
    return some (id, user.data.username)
  | none => pure none

def settleLogin (identityId : Uuid) : Ceremony Nat := do
  Prog.ofOption (.internal "identity is missing its linked grimoire user")
    (← grimoireUserIdForIdentity identityId)

/-! The http handlers. -/

def registerStart (site : Site) (origin username : String) (inviteCode : Option String) :
    Ceremony (String × Uuid) := do
  let rp ← relyingParty site origin
  let now ← ask .now
  let identity ← httpIdentity inviteCode username now
  startRegistration site rp origin username inviteCode now identity

@[grind =] def registerFinish (site : Site) (origin : String) (nonce : Uuid) (credential : String) :
    Ceremony User := do
  let rp ← relyingParty site origin
  let now ← ask .now
  let outcome ← ceremony (Haruspex.Webauthn.registerFinish rp origin nonce credential none now)
  let (userId, _) ← settleRegistration outcome
  let user ← (getUser userId).mapError fun _ => .internal "failed to load user"
  return user.data

def loginStart (site : Site) (origin : String) (username : Option String) :
    Ceremony (String × Uuid) := do
  let rp ← relyingParty site origin
  let now ← ask .now
  let identity ← loginIdentity username now
  ceremony (Haruspex.Webauthn.loginStart rp origin identity now site.challengeTtlSecs)

@[grind =] def loginFinish (site : Site) (origin : String) (nonce : Uuid) (credential : String) :
    Ceremony User := do
  let rp ← relyingParty site origin
  let now ← ask .now
  let identityId ← ceremony (Haruspex.Webauthn.loginFinish rp origin nonce credential none now)
  let userId ← settleLogin identityId
  let user ← (getUser userId).mapError fun _ => .internal "no user data"
  return user.data

end Webauthn

/-! The p2p handlers. Their callers name an origin and the node they connect from, and a finished
ceremony also makes the node one of the account's peer nodes. -/
namespace WebauthnP2p

open Lib
open Haruspex (Uuid)
open Haruspex.Webauthn (PasskeyRp)
open UserService
open Webauthn

def toFailure : WebauthnCeremonyError → Failure
  | .badRequest detail => ⟨detail, [⟨"bad_request", "bad request", detail⟩]⟩
  | .internal detail => ⟨detail, [⟨"internal_error", "internal error", detail⟩]⟩

def validateOrigin (site : Site) (origin : String) : Service PasskeyRp := do
  Prog.require (site.allowedOrigins.any fun allowed =>
      decide (allowed = "any") || decide (allowed = origin))
    ⟨"origin not allowed", [⟨"forbidden", "forbidden",
      "origin '" ++ origin ++ "' is not in allowed_origins"⟩]⟩
  let rpId ← Prog.ofOption ⟨"invalid origin", [⟨"bad_request", "invalid origin",
    "could not extract rp_id from origin url"⟩]⟩ (site.extractRpId origin)
  return site.passkeyRp rpId

def linkPeer (userId : Nat) (nodeId : Option String) (instanceName : String) : Service Unit :=
  match nodeId with
  | some nodeId => do
    let _ ← (addPeerNode userId nodeId (some instanceName)).result
  | none => pure ()

@[grind =]
def registerStart (site : Site) (origin username : String) (inviteCode nodeId : Option String) :
    Service (Reply (String × Uuid)) := do
  let rp ← validateOrigin site origin
  let now ← ask .now
  let identity ← (p2pIdentity inviteCode nodeId username now).mapError toFailure
  let challenge ← (startRegistration site rp origin username inviteCode now identity).mapError
    toFailure
  return ⟨"registration challenge created", challenge⟩

def registerFinish (site : Site) (origin : String) (nonce : Uuid) (credential : String)
    (nodeId : Option String) : Service (Reply (Nat × String)) := do
  let rp ← validateOrigin site origin
  let now ← ask .now
  let outcome ← (ceremony
    (Haruspex.Webauthn.registerFinish rp origin nonce credential nodeId now)).mapError toFailure
  let (userId, username) ← (settleRegistration outcome).mapError toFailure
  linkPeer userId nodeId "passkey registration"
  return ⟨"registration successful", (userId, username)⟩

@[grind =] def loginStart (site : Site) (origin : String) (username : Option String) :
    Service (Reply (String × Uuid)) := do
  let rp ← validateOrigin site origin
  let now ← ask .now
  let identity ← (loginIdentity username now).mapError toFailure
  let challenge ← (ceremony
    (Haruspex.Webauthn.loginStart rp origin identity now site.challengeTtlSecs)).mapError toFailure
  return ⟨"authentication challenge created", challenge⟩

def loginFinish (site : Site) (origin : String) (nonce : Uuid) (credential : String)
    (nodeId : Option String) : Service (Reply (Nat × String)) := do
  let rp ← validateOrigin site origin
  let now ← ask .now
  let identityId ← (ceremony
    (Haruspex.Webauthn.loginFinish rp origin nonce credential nodeId now)).mapError toFailure
  let userId ← (settleLogin identityId).mapError toFailure
  linkPeer userId nodeId "passkey login"
  let user ← query (.findUserById userId)
  return ⟨"authentication successful", (userId, (user.map User.username).getD "")⟩

end WebauthnP2p

end Tomb.Grimoire
