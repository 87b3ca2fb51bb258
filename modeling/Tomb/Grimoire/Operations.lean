import Mathlib.Data.Set.Basic
import Tomb.Grimoire.Footprint
import Tomb.Lib.Runs

/-! The operations on grimoire's accounts as one type, and the runs of a server that performs them
one after another under a clock. -/
namespace Tomb.Grimoire

open Lib
open Haruspex (Uuid)

inductive ServiceOp where
  | bootstrapRootUser (username : String)
  | registerUser (request : CreateUserRequest)
  | getUser (userId : Nat)
  | getUserByUsername (username : String)
  | getUserByApiKey (apiKey : String)
  | getUserByNodeId (nodeId : String)
  | updateUser (userId : Nat) (request : UpdateUserRequest) (requestingUser : User)
  | deleteUser (userId : Nat) (requestingUser : User)
  | restoreUser (userId : Nat) (requestingUser : User)
  | hardDeleteUser (userId : Nat) (requestingUser : User)
  | generateApiKey (userId : Nat) (apiKey : String)
  | revokeApiKey (userId : Nat)
  | ensureApiKey (user : User) (apiKey : String)
  | generateInviteCodes (request : CreateInviteCodeRequest) (codes : List String) (requestingUser :
      User)
  | createPlayerPairingCode (grantsRole : UserRole) (maxUses : Int) (code : String)
  | updateUsername (userId : Nat) (newUsername : String)
  | generateSelfAccountLink (userId : Nat) (code : String)
  | createAccountLinkCodeInternal (userId : Nat) (code : String)
  | revokeOwnInviteCode (code : String) (userId : Nat)
  | checkInviteCode (code : String)
  | markInviteUsed (code : String) (usedById : Nat)
  | deactivateInviteCode (code : String) (requestingUser : User)
  | deactivateAllActiveInvites (requestingUser : User)
  | updateInviteRole (code : String) (role : UserRole) (requestingUser : User)
  | syncFederatedUser (username haruspexUserId : String) (role : UserRole) (apiKey : String)
  | upsertPeerNode (userId : Nat) (nodeId : String) (instanceName : Option String)
  | addPeerNode (userId : Nat) (nodeId : String) (instanceName : Option String)
  | getUserPeerNodes (userId : Nat) (includeDeleted : Bool)
  | removePeerNode (userId : Nat) (nodeId : String)
  | restorePeerNode (userId : Nat) (nodeId : String)
  | hardDeletePeerNode (userId : Nat) (nodeId : String)
  | hardDeletePeerNodeByNodeId (nodeId : String)
  | reassignPeerNodeUser (nodeId : String) (userId : Nat)
  | touchPeerNode (nodeId : String)
  | getApiKeyForPeer (nodeId : String) (apiKey : String)

namespace ServiceOp

def prog {ε : Type} : ServiceOp → Prog Cmd ε Unit
  | .bootstrapRootUser username => (UserService.bootstrapRootUser username).quiet
  | .registerUser request => (UserService.registerUser request).quiet
  | .getUser userId => (UserService.getUser userId).quiet
  | .getUserByUsername username => (UserService.getUserByUsername username).quiet
  | .getUserByApiKey apiKey => (UserService.getUserByApiKey apiKey).quiet
  | .getUserByNodeId nodeId => (UserService.getUserByNodeId nodeId).quiet
  | .updateUser userId request requestingUser =>
    (UserService.updateUser userId request requestingUser).quiet
  | .deleteUser userId requestingUser => (UserService.deleteUser userId requestingUser).quiet
  | .restoreUser userId requestingUser => (UserService.restoreUser userId requestingUser).quiet
  | .hardDeleteUser userId requestingUser =>
    (UserService.hardDeleteUser userId requestingUser).quiet
  | .generateApiKey userId apiKey => (UserService.generateApiKey userId apiKey).quiet
  | .revokeApiKey userId => (UserService.revokeApiKey userId).quiet
  | .ensureApiKey user apiKey => (UserService.ensureApiKey user apiKey).quiet
  | .generateInviteCodes request codes requestingUser =>
    (UserService.generateInviteCodes request codes requestingUser).quiet
  | .createPlayerPairingCode grantsRole maxUses code =>
    (UserService.createPlayerPairingCode grantsRole maxUses code).quiet
  | .updateUsername userId newUsername => (UserService.updateUsername userId newUsername).quiet
  | .generateSelfAccountLink userId code => (UserService.generateSelfAccountLink userId code).quiet
  | .createAccountLinkCodeInternal userId code =>
    (UserService.createAccountLinkCodeInternal userId code).quiet
  | .revokeOwnInviteCode code userId => (UserService.revokeOwnInviteCode code userId).quiet
  | .checkInviteCode code => (UserService.checkInviteCode code).quiet
  | .markInviteUsed code usedById => (UserService.markInviteUsed code usedById).quiet
  | .deactivateInviteCode code requestingUser =>
    (UserService.deactivateInviteCode code requestingUser).quiet
  | .deactivateAllActiveInvites requestingUser =>
    (UserService.deactivateAllActiveInvites requestingUser).quiet
  | .updateInviteRole code role requestingUser =>
    (UserService.updateInviteRole code role requestingUser).quiet
  | .syncFederatedUser username haruspexUserId role apiKey =>
    (UserService.syncFederatedUser username haruspexUserId role apiKey).quiet
  | .upsertPeerNode userId nodeId instanceName =>
    (UserService.upsertPeerNode userId nodeId instanceName).quiet
  | .addPeerNode userId nodeId instanceName =>
    (UserService.addPeerNode userId nodeId instanceName).quiet
  | .getUserPeerNodes userId includeDeleted =>
    (UserService.getUserPeerNodes userId includeDeleted).quiet
  | .removePeerNode userId nodeId => (UserService.removePeerNode userId nodeId).quiet
  | .restorePeerNode userId nodeId => (UserService.restorePeerNode userId nodeId).quiet
  | .hardDeletePeerNode userId nodeId => (UserService.hardDeletePeerNode userId nodeId).quiet
  | .hardDeletePeerNodeByNodeId nodeId => (UserService.hardDeletePeerNodeByNodeId nodeId).quiet
  | .reassignPeerNodeUser nodeId userId => (UserService.reassignPeerNodeUser nodeId userId).quiet
  | .touchPeerNode nodeId => (UserService.touchPeerNode nodeId).quiet
  | .getApiKeyForPeer nodeId apiKey => (UserService.getApiKeyForPeer nodeId apiKey).quiet

def effects : ServiceOp → Set Cmd.Effect
  | .bootstrapRootUser _ => {.read, .insertUser}
  | .registerUser _ =>
    {.read, .insertUser, .haruspex .upsertIdentity, .haruspex .stampUsed, .haruspex .incrementUse,
      .haruspex .logRedemption}
  | .getUser _ => {.read}
  | .getUserByUsername _ => {.read}
  | .getUserByApiKey _ => {.read}
  | .getUserByNodeId _ => {.read}
  | .updateUser _ _ _ => {.read, .setRole, .touchUser}
  | .deleteUser _ _ => {.read, .softDeleteUser, .haruspex .removeDevice}
  | .restoreUser _ _ => {.read, .restoreUser}
  | .hardDeleteUser _ _ => {.read, .deleteUserRow, .haruspex .hardDeleteIdentity}
  | .generateApiKey _ _ => {.read, .haruspex .upsertIdentity, .haruspex .setApiKey, .touchUser}
  | .revokeApiKey _ => {.read, .haruspex .upsertIdentity, .haruspex .setApiKey, .touchUser}
  | .ensureApiKey _ _ => {.read, .haruspex .upsertIdentity, .haruspex .setApiKey, .touchUser}
  | .generateInviteCodes _ _ _ =>
    {.read, .haruspex .upsertIdentity, .haruspex .freshId, .haruspex .createInvite}
  | .createPlayerPairingCode _ _ _ =>
    {.read, .haruspex .upsertIdentity, .haruspex .freshId, .haruspex .createInvite}
  | .updateUsername _ _ => {.read, .setUsername}
  | .generateSelfAccountLink _ _ =>
    {.read, .haruspex .upsertIdentity, .haruspex .freshId, .haruspex .createInvite}
  | .createAccountLinkCodeInternal _ _ =>
    {.read, .haruspex .upsertIdentity, .haruspex .freshId, .haruspex .createInvite}
  | .revokeOwnInviteCode _ _ => {.read, .haruspex .deactivate}
  | .checkInviteCode _ => {.read}
  | .markInviteUsed _ _ =>
    {.read, .haruspex .upsertIdentity, .haruspex .stampUsed, .haruspex .incrementUse, .haruspex
      .logRedemption}
  | .deactivateInviteCode _ _ => {.haruspex .deactivate}
  | .deactivateAllActiveInvites _ => {.haruspex .deactivateAllUnused}
  | .updateInviteRole _ _ _ => {.read, .haruspex .updateGrantsRole}
  | .syncFederatedUser _ _ _ _ =>
    {.read, .insertUser, .restoreUser, .updateFederatedProfile, .setHaruspexUserId, .haruspex
      .upsertIdentity, .haruspex .setApiKey, .touchUser}
  | .upsertPeerNode _ nodeId _ => {.read, .haruspex .upsertIdentity, .haruspex (.addDevice nodeId)}
  | .addPeerNode _ nodeId _ => {.read, .haruspex .upsertIdentity, .haruspex (.addDevice nodeId)}
  | .getUserPeerNodes _ _ => {.read}
  | .removePeerNode _ _ => {.read, .haruspex .removeDevice}
  | .restorePeerNode _ nodeId => {.read, .haruspex (.addDevice nodeId)}
  | .hardDeletePeerNode _ _ => {.read, .haruspex .hardDeleteDevice}
  | .hardDeletePeerNodeByNodeId _ => {.read, .haruspex .hardDeleteDevice}
  | .reassignPeerNodeUser nodeId _ =>
    {.read, .haruspex .upsertIdentity, .haruspex (.forceReassignDevice nodeId)}
  | .touchPeerNode _ => {.read, .haruspex .touchDevice}
  | .getApiKeyForPeer _ _ => {.read, .haruspex .upsertIdentity, .haruspex .setApiKey, .touchUser}

theorem prog_uses {ε : Type} (op : ServiceOp) :
    (op.prog : Prog Cmd ε Unit).Within (Cmd.Uses op.effects) := by
  cases op <;> simp [prog, effects]

end ServiceOp

/-- What the server is asked to do: a call of the user service, a knock or a decision on one, a
passkey ceremony over http or p2p, or nothing while the clock moves. -/
inductive Op where
  | service (op : ServiceOp)
  | createKnock (nodeId username message : String)
  | acceptKnock (id : Uuid) (request : Knock.ProcessKnockRequest) (adminUserId : String)
  | rejectKnock (id : Uuid) (adminUserId : String)
  | deleteKnock (id : Uuid)
  | rejectAllKnocks (adminUserId : String)
  | registerStart (origin username : String) (inviteCode : Option String)
  | registerFinish (origin : String) (nonce : Uuid) (credential : String)
  | loginStart (origin : String) (username : Option String)
  | loginFinish (origin : String) (nonce : Uuid) (credential : String)
  | p2pRegisterStart (origin username : String) (inviteCode nodeId : Option String)
  | p2pRegisterFinish (origin : String) (nonce : Uuid) (credential : String)
      (nodeId : Option String)
  | p2pLoginStart (origin : String) (username : Option String)
  | p2pLoginFinish (origin : String) (nonce : Uuid) (credential : String) (nodeId : Option String)
  | tick (now : Int)

namespace Op

def prog {ε : Type} (site : Webauthn.Site) : Op → Prog Cmd ε Unit
  | .service op => op.prog
  | .createKnock nodeId username message => (Knock.createKnock nodeId username message).quiet
  | .acceptKnock id request adminUserId => (Knock.acceptKnock id request adminUserId).quiet
  | .rejectKnock id adminUserId => (Knock.rejectKnock id adminUserId).quiet
  | .deleteKnock id => (Knock.deleteKnock id).quiet
  | .rejectAllKnocks adminUserId => (Knock.rejectAllKnocks adminUserId).quiet
  | .registerStart origin username inviteCode =>
    (Webauthn.registerStart site origin username inviteCode).quiet
  | .registerFinish origin nonce credential =>
    (Webauthn.registerFinish site origin nonce credential).quiet
  | .loginStart origin username => (Webauthn.loginStart site origin username).quiet
  | .loginFinish origin nonce credential =>
    (Webauthn.loginFinish site origin nonce credential).quiet
  | .p2pRegisterStart origin username inviteCode nodeId =>
    (WebauthnP2p.registerStart site origin username inviteCode nodeId).quiet
  | .p2pRegisterFinish origin nonce credential nodeId =>
    (WebauthnP2p.registerFinish site origin nonce credential nodeId).quiet
  | .p2pLoginStart origin username => (WebauthnP2p.loginStart site origin username).quiet
  | .p2pLoginFinish origin nonce credential nodeId =>
    (WebauthnP2p.loginFinish site origin nonce credential nodeId).quiet
  | .tick _ => pure ()

def effects : Op → Set Cmd.Effect
  | .service op => op.effects
  | .createKnock _ _ _ => {.read, .haruspex .createKnock}
  | .acceptKnock _ _ _ =>
    {.read, .insertUser, .haruspex .upsertIdentity, .haruspex .stampUsed, .haruspex .incrementUse,
      .haruspex .logRedemption, .haruspex .recordDecision} ∪ {e | ∃ node, e = .haruspex (.addDevice
      node)}
  | .rejectKnock _ _ => {.read, .haruspex .recordDecision}
  | .deleteKnock _ => {.haruspex .deleteKnock}
  | .rejectAllKnocks _ => {.read, .haruspex .recordDecision}
  | .registerStart _ _ _ =>
    {.read, .haruspex .freshId, .haruspex .upsertIdentity, .haruspex .saveChallenge}
  | .registerFinish _ _ _ =>
    {.read, .insertUser, .haruspex .upsertIdentity, .haruspex .stampUsed, .haruspex .incrementUse,
      .haruspex .logRedemption, .haruspex .takeChallenge, .haruspex .addCredential}
  | .loginStart _ _ => {.read, .haruspex .upsertIdentity, .haruspex .saveChallenge}
  | .loginFinish _ _ _ => {.read, .haruspex .takeChallenge, .haruspex .touchLastUsed}
  | .p2pRegisterStart _ _ _ _ =>
    {.read, .haruspex .freshId, .haruspex .upsertIdentity, .haruspex .saveChallenge}
  | .p2pRegisterFinish _ _ _ nodeId =>
    {.read, .insertUser, .haruspex .upsertIdentity, .haruspex .stampUsed, .haruspex .incrementUse,
      .haruspex .logRedemption, .haruspex .takeChallenge, .haruspex .addCredential} ∪ {e | ∃ node ∈
      nodeId, e = .haruspex (.addDevice node)}
  | .p2pLoginStart _ _ => {.read, .haruspex .upsertIdentity, .haruspex .saveChallenge}
  | .p2pLoginFinish _ _ _ nodeId =>
    {.read, .haruspex .upsertIdentity, .haruspex .takeChallenge, .haruspex .touchLastUsed} ∪ {e | ∃
      node ∈ nodeId, e = .haruspex (.addDevice node)}
  | .tick _ => ∅

theorem prog_uses {ε : Type} (site : Webauthn.Site) (op : Op) :
    (op.prog site : Prog Cmd ε Unit).Within (Cmd.Uses op.effects) := by
  cases op with
  | service op => exact op.prog_uses
  | _ => simp [prog, effects]

def perform (site : Webauthn.Site) (op : Op) (s : Db) : Db :=
  match op with
  | .tick now => s.setNow now
  | op => ((op.prog site : Prog Cmd Empty Unit).run s).2

theorem perform_keeps (site : Webauthn.Site) (op : Op) (inv : Db → Prop)
    (clock : ∀ s now, inv s → inv (s.setNow now))
    (keeps : ∀ {β : Type} (command : Cmd β) (s : Db), command.Uses op.effects → inv s →
      inv (command.exec s).2) {s : Db} (start : inv s) : inv (op.perform site s) := by
  cases op with
  | tick now => exact clock s now start
  | _ => exact (prog_uses site _).run_keeps keeps start

end Op

abbrev serve (site : Webauthn.Site) (ops : List Op) (s : Db) : Db :=
  runAll (Op.perform site) ops s

end Tomb.Grimoire
