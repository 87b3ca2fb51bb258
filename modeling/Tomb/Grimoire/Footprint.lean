import Tomb.Grimoire.Webauthn
import Tomb.Grimoire.Knock

/-! The footprints of grimoire's programs: which statements that write each of them can run. -/
namespace Tomb.Grimoire

open Lib
open Haruspex (Uuid)

@[simp] theorem uses_of_store {ε α : Type} {effects : Set Cmd.Effect} {p : Prog Haruspex.Cmd ε α}
    (inner : p.Within (Haruspex.Cmd.Uses (Set.preimage Cmd.Effect.haruspex effects))) :
    (p.embed Cmd.haruspex).Within (Cmd.Uses effects) :=
  Prog.within_embed (inner.imp fun _ used => used)

theorem ends_users {ε α : Type} {fits : {β : Type} → Cmd β → Db → Prop} {p : Prog Cmd ε α}
    (uses : p.Within (Cmd.Uses (Set.range Cmd.Effect.haruspex))) (s : Db) :
    p.Ends fits s fun _ t => t.users = s.users :=
  uses.ends (fun command t used _ same => (command.exec_users t used).trans same) rfl

section Bridge

variable {effects : Set Cmd.Effect}

@[simp] theorem ensureIdentityForUser_uses (userId : Nat) (username : String) (now : Int)
    (has : .haruspex .upsertIdentity ∈ effects) :
    (ensureIdentityForUser userId username now).Within (Cmd.Uses effects) := by
  simp [ensureIdentityForUser, has]

@[simp] theorem createPendingIdentity_uses (identityId : Uuid) (username : String) (now : Int)
    (has : .haruspex .upsertIdentity ∈ effects) :
    (createPendingIdentity identityId username now).Within (Cmd.Uses effects) := by
  simp [createPendingIdentity, has]

@[simp] theorem linkIdentityToGrimoireUser_uses (identityId : Uuid) (userId : Nat)
    (has : {.read, .haruspex .upsertIdentity} ⊆ effects) :
    (linkIdentityToGrimoireUser identityId userId).Within (Cmd.Uses effects) := by
  simp only [Set.insert_subset_iff, Set.singleton_subset_iff] at has
  simp only [linkIdentityToGrimoireUser, Prog.within_bind, Prog.within_issue]
  refine ⟨has.1, fun existing _ => ⟨?_, ?_⟩⟩
  · cases existing <;> simp [has]
  · simp [has]

@[simp] theorem grimoireUserIdForIdentity_uses {ε : Type} (identityId : Uuid)
    (has : .read ∈ effects) :
    (grimoireUserIdForIdentity identityId : Prog Cmd ε _).Within (Cmd.Uses effects) := by
  simp [grimoireUserIdForIdentity, has]

@[simp] theorem ensuredUser_uses (userId : Nat)
    (has : {.read, .haruspex .upsertIdentity} ⊆ effects) :
    (ensuredUser userId).Within (Cmd.Uses effects) := by
  simp_all [ensuredUser, Set.insert_subset_iff]

end Bridge

namespace UserRepository

variable {effects : Set Cmd.Effect}

@[simp] theorem resolveOptional_uses {ε : Type} (id : Option Uuid) (has : .read ∈ effects) :
    (resolveOptional id : Prog Cmd ε _).Within (Cmd.Uses effects) := by
  cases id <;> simp [resolveOptional, has]

@[simp] theorem toGrimoireInviteCode_uses (invite : Haruspex.InviteCode) (has : .read ∈ effects) :
    (toGrimoireInviteCode invite).Within (Cmd.Uses effects) := by
  simp [toGrimoireInviteCode, has]

@[simp] theorem createUser_uses (request : CreateUserRequest)
    (has : {.read, .insertUser} ⊆ effects) :
    (createUser request).Within (Cmd.Uses effects) := by
  simp_all [createUser, Set.insert_subset_iff]

@[simp] theorem findUserByApiKey_uses (apiKey : String) (has : .read ∈ effects) :
    (findUserByApiKey apiKey).Within (Cmd.Uses effects) := by
  simp only [findUserByApiKey, Prog.within_bind, Prog.within_issue]
  refine ⟨has, fun identity _ => ?_⟩
  cases identity with
  | none => trivial
  | some identity =>
    simp only [Prog.within_bind, grimoireUserIdForIdentity_uses _ has, true_and]
    rintro (_ | userId) _
    · trivial
    · simp [has]

@[simp] theorem updateUser_uses (userId : Nat) (request : UpdateUserRequest)
    (has : {.read, .setRole, .touchUser} ⊆ effects) :
    (updateUser userId request).Within (Cmd.Uses effects) := by
  simp only [Set.insert_subset_iff, Set.singleton_subset_iff] at has
  obtain ⟨role⟩ := request
  cases role <;>
    simp [updateUser, has]

@[simp] theorem updateUsername_uses (userId : Nat) (username : String)
    (has : {.read, .setUsername} ⊆ effects) :
    (updateUsername userId username).Within (Cmd.Uses effects) := by
  simp_all [updateUsername, Set.insert_subset_iff]

@[simp] theorem setApiKey_uses (userId : Nat) (apiKey : String)
    (has : {.read, .haruspex .upsertIdentity, .haruspex .setApiKey, .touchUser} ⊆ effects) :
    (setApiKey userId apiKey).Within (Cmd.Uses effects) := by
  simp_all [setApiKey, Set.insert_subset_iff]

@[simp] theorem hasApiKey_uses (userId : Nat)
    (has : .read ∈ effects) :
    (hasApiKey userId).Within (Cmd.Uses effects) := by
  simp [hasApiKey, has]

@[simp] theorem removeDevices_uses (devices : List Haruspex.DeviceNode)
    (has : .haruspex .removeDevice ∈ effects) :
    (removeDevices devices).Within (Cmd.Uses effects) := by
  induction devices with
  | nil => trivial
  | cons device rest ih =>
    simp [removeDevices, has, ih]

@[simp] theorem deleteUser_uses (userId : Nat)
    (has : {.read, .softDeleteUser, .haruspex .removeDevice} ⊆ effects) :
    (deleteUser userId).Within (Cmd.Uses effects) := by
  simp_all [deleteUser, Set.insert_subset_iff]

@[simp] theorem restoreUser_uses (userId : Nat)
    (has : {.read, .restoreUser} ⊆ effects) :
    (restoreUser userId).Within (Cmd.Uses effects) := by
  simp_all [restoreUser, Set.insert_subset_iff]

@[simp] theorem hardDeleteUser_uses (userId : Nat)
    (has : {.deleteUserRow, .haruspex .hardDeleteIdentity} ⊆ effects) :
    (hardDeleteUser userId).Within (Cmd.Uses effects) := by
  simp_all [hardDeleteUser, Set.insert_subset_iff]

@[simp] theorem linkTarget_uses (now : Int) (target : Option Nat)
    (has : {.read, .haruspex .upsertIdentity} ⊆ effects) :
    (linkTarget now target).Within (Cmd.Uses effects) := by
  simp only [Set.insert_subset_iff, Set.singleton_subset_iff] at has
  cases target <;>
    simp [linkTarget, has]

@[simp] theorem createInviteCode_uses (code : String) (request : CreateInviteCodeRequest)
    (has : {.read, .haruspex .upsertIdentity, .haruspex .freshId, .haruspex .createInvite} ⊆
      effects) :
    (createInviteCode code request).Within (Cmd.Uses effects) := by
  simp_all [createInviteCode, Set.insert_subset_iff]

@[simp] theorem findInviteCode_uses (code : String)
    (has : .read ∈ effects) :
    (findInviteCode code).Within (Cmd.Uses effects) := by
  simp only [findInviteCode, Prog.within_bind, Prog.within_issue]
  refine ⟨has, fun invite _ => ?_⟩
  cases invite <;> simp [has]

@[simp] theorem useInviteCode_uses (code : String) (usedById : Nat)
    (has : {.read, .haruspex .upsertIdentity, .haruspex .stampUsed, .haruspex .incrementUse,
      .haruspex .logRedemption} ⊆ effects) :
    (useInviteCode code usedById).Within (Cmd.Uses effects) := by
  simp_all [useInviteCode, Set.insert_subset_iff]

@[simp] theorem deactivateOwnInviteCode_uses (code : String) (userId : Nat)
    (has : {.read, .haruspex .deactivate} ⊆ effects) :
    (deactivateOwnInviteCode code userId).Within (Cmd.Uses effects) := by
  simp only [Set.insert_subset_iff, Set.singleton_subset_iff] at has
  simp only [deactivateOwnInviteCode, Prog.within_bind, Prog.within_issue]
  refine ⟨has.1, fun invite _ => ?_⟩
  cases invite <;> simp [has]

@[simp] theorem updateInviteRole_uses (code : String) (role : UserRole)
    (has : {.read, .haruspex .updateGrantsRole} ⊆ effects) :
    (updateInviteRole code role).Within (Cmd.Uses effects) := by
  simp_all [updateInviteRole, Set.insert_subset_iff]

@[simp] theorem findUserByNodeId_uses (nodeId : String)
    (has : .read ∈ effects) :
    (findUserByNodeId nodeId).Within (Cmd.Uses effects) := by
  simp only [findUserByNodeId, Prog.within_bind, Prog.within_issue]
  refine ⟨has, fun device _ => ?_⟩
  split
  · simp only [Prog.within_bind, grimoireUserIdForIdentity_uses _ has, true_and]
    rintro (_ | userId) _
    · trivial
    · simp [has]
  · trivial

@[simp] theorem createFederatedUser_uses (username haruspexUserId : String) (role : UserRole)
    (has : {.read, .insertUser} ⊆ effects) :
    (createFederatedUser username haruspexUserId role).Within (Cmd.Uses effects) := by
  simp_all [createFederatedUser, Set.insert_subset_iff]

@[simp] theorem updateFederatedUserProfile_uses (userId : Nat) (username : String)
    (has : {.read, .updateFederatedProfile} ⊆ effects) :
    (updateFederatedUserProfile userId username).Within (Cmd.Uses effects) := by
  simp_all [updateFederatedUserProfile, Set.insert_subset_iff]

@[simp] theorem setHaruspexUserId_uses (userId : Nat) (haruspexUserId : String)
    (has : {.read, .setHaruspexUserId} ⊆ effects) :
    (setHaruspexUserId userId haruspexUserId).Within (Cmd.Uses effects) := by
  simp_all [setHaruspexUserId, Set.insert_subset_iff]

@[simp] theorem upsertPeerNode_uses (userId : Nat) (nodeId : String) (instanceName : Option String)
    (has : {.read, .haruspex .upsertIdentity, .haruspex (.addDevice nodeId)} ⊆ effects) :
    (upsertPeerNode userId nodeId instanceName).Within (Cmd.Uses effects) := by
  simp_all [upsertPeerNode, Set.insert_subset_iff]

@[simp] theorem getUserPeerNodes_uses (userId : Nat) (includeDeleted : Bool)
    (has : .read ∈ effects) :
    (getUserPeerNodes userId includeDeleted).Within (Cmd.Uses effects) := by
  simp [getUserPeerNodes, has]

@[simp] theorem ownDevice_uses (userId : Nat) (nodeId : String)
    (has : .read ∈ effects) :
    (ownDevice userId nodeId).Within (Cmd.Uses effects) := by
  simp [ownDevice, has]

@[simp] theorem removePeerNode_uses (userId : Nat) (nodeId : String)
    (has : {.read, .haruspex .removeDevice} ⊆ effects) :
    (removePeerNode userId nodeId).Within (Cmd.Uses effects) := by
  simp_all [removePeerNode, Set.insert_subset_iff]

@[simp] theorem restorePeerNode_uses (userId : Nat) (nodeId : String)
    (has : {.read, .haruspex (.addDevice nodeId)} ⊆ effects) :
    (restorePeerNode userId nodeId).Within (Cmd.Uses effects) := by
  simp only [Set.insert_subset_iff, Set.singleton_subset_iff] at has
  simp only [restorePeerNode, Prog.within_bind, ownDevice_uses _ _ has.1, true_and]
  rintro (_ | device) _
  · trivial
  · simp [Set.insert_subset_iff, has]

@[simp] theorem hardDeletePeerNode_uses (userId : Nat) (nodeId : String)
    (has : {.read, .haruspex .hardDeleteDevice} ⊆ effects) :
    (hardDeletePeerNode userId nodeId).Within (Cmd.Uses effects) := by
  simp_all [hardDeletePeerNode, Set.insert_subset_iff]

@[simp] theorem hardDeletePeerNodeByNodeId_uses (nodeId : String)
    (has : {.read, .haruspex .hardDeleteDevice} ⊆ effects) :
    (hardDeletePeerNodeByNodeId nodeId).Within (Cmd.Uses effects) := by
  simp only [Set.insert_subset_iff, Set.singleton_subset_iff] at has
  simp only [hardDeletePeerNodeByNodeId, Prog.within_bind, Prog.within_issue]
  refine ⟨has.1, fun device _ => ?_⟩
  cases device <;> simp [has]

@[simp] theorem reassignPeerNodeUser_uses (nodeId : String) (userId : Nat)
    (has : {.read, .haruspex .upsertIdentity, .haruspex (.forceReassignDevice nodeId)} ⊆ effects) :
    (reassignPeerNodeUser nodeId userId).Within (Cmd.Uses effects) := by
  simp_all [reassignPeerNodeUser, Set.insert_subset_iff]

@[simp] theorem touchPeerNode_uses (nodeId : String)
    (has : {.read, .haruspex .touchDevice} ⊆ effects) :
    (touchPeerNode nodeId).Within (Cmd.Uses effects) := by
  simp only [Set.insert_subset_iff, Set.singleton_subset_iff] at has
  simp only [touchPeerNode, Prog.within_bind, Prog.within_issue]
  refine ⟨has.1, fun device _ => ?_⟩
  split <;> simp [has]

end UserRepository

namespace UserService

open UserRepository

variable {effects : Set Cmd.Effect}

@[simp] theorem validateInviteCode_uses (code : String)
    (has : .read ∈ effects) :
    (validateInviteCode code).Within (Cmd.Uses effects) := by
  simp [validateInviteCode, has]

@[simp] theorem presentedCode_uses (code : Option String)
    (has : .read ∈ effects) :
    (presentedCode code).Within (Cmd.Uses effects) := by
  cases code <;> simp [presentedCode, has]

@[simp] theorem bootstrapRootUser_uses (username : String)
    (has : {.read, .insertUser} ⊆ effects) :
    (bootstrapRootUser username).Within (Cmd.Uses effects) := by
  simp only [Set.insert_subset_iff, Set.singleton_subset_iff] at has
  simp only [bootstrapRootUser, Prog.within_bind, Prog.within_issue]
  refine ⟨has.1, fun existing _ => ?_⟩
  cases existing <;> simp [Set.insert_subset_iff, has]

@[simp] theorem linkAccount_uses (code : String) (invite : InviteCode)
    (has : {.read, .haruspex .upsertIdentity, .haruspex .stampUsed, .haruspex .incrementUse,
      .haruspex .logRedemption} ⊆ effects) :
    (linkAccount code invite).Within (Cmd.Uses effects) := by
  simp_all [linkAccount, Set.insert_subset_iff]

@[simp] theorem registerAccount_uses (request : CreateUserRequest) (invite : Option InviteCode)
    (has : {.read, .insertUser, .haruspex .upsertIdentity, .haruspex .stampUsed, .haruspex
      .incrementUse, .haruspex .logRedemption} ⊆ effects) :
    (registerAccount request invite).Within (Cmd.Uses effects) := by
  simp only [Set.insert_subset_iff, Set.singleton_subset_iff] at has
  obtain ⟨username, role, code⟩ := request
  cases code <;> simp [registerAccount, Set.insert_subset_iff, has]

@[simp] theorem registerUser_uses (request : CreateUserRequest)
    (has : {.read, .insertUser, .haruspex .upsertIdentity, .haruspex .stampUsed, .haruspex
      .incrementUse, .haruspex .logRedemption} ⊆ effects) :
    (registerUser request).Within (Cmd.Uses effects) := by
  simp only [Set.insert_subset_iff, Set.singleton_subset_iff] at has
  simp only [registerUser, Prog.within_bind, presentedCode_uses _ has.1, true_and]
  intro invite _
  split <;> simp [Set.insert_subset_iff, has]

@[simp] theorem getUser_uses (userId : Nat)
    (has : .read ∈ effects) :
    (getUser userId).Within (Cmd.Uses effects) := by
  simp [getUser, has]

@[simp] theorem getUserByUsername_uses (username : String)
    (has : .read ∈ effects) :
    (getUserByUsername username).Within (Cmd.Uses effects) := by
  simp [getUserByUsername, has]

@[simp] theorem getUserByApiKey_uses (apiKey : String)
    (has : .read ∈ effects) :
    (getUserByApiKey apiKey).Within (Cmd.Uses effects) := by
  simp [getUserByApiKey, has]

@[simp] theorem getUserByNodeId_uses (nodeId : String)
    (has : .read ∈ effects) :
    (getUserByNodeId nodeId).Within (Cmd.Uses effects) := by
  simp [getUserByNodeId, has]

@[simp] theorem adminOnly_within {allowed : {β : Type} → Cmd β → Prop} (requestingUser : User) :
    (adminOnly requestingUser).Within allowed := Prog.within_require _ _

@[simp] theorem updateUser_uses (userId : Nat) (request : UpdateUserRequest) (requestingUser : User)
    (has : {.read, .setRole, .touchUser} ⊆ effects) :
    (updateUser userId request requestingUser).Within (Cmd.Uses effects) := by
  simp_all [updateUser, Set.insert_subset_iff]

@[simp] theorem deleteUser_uses (userId : Nat) (requestingUser : User)
    (has : {.read, .softDeleteUser, .haruspex .removeDevice} ⊆ effects) :
    (deleteUser userId requestingUser).Within (Cmd.Uses effects) := by
  simp_all [deleteUser, Set.insert_subset_iff]

@[simp] theorem restoreUser_uses (userId : Nat) (requestingUser : User)
    (has : {.read, .restoreUser} ⊆ effects) :
    (restoreUser userId requestingUser).Within (Cmd.Uses effects) := by
  simp_all [restoreUser, Set.insert_subset_iff]

@[simp] theorem hardDeleteUser_uses (userId : Nat) (requestingUser : User)
    (has : {.read, .deleteUserRow, .haruspex .hardDeleteIdentity} ⊆ effects) :
    (hardDeleteUser userId requestingUser).Within (Cmd.Uses effects) := by
  simp_all [hardDeleteUser, Set.insert_subset_iff]

@[simp] theorem generateApiKey_uses (userId : Nat) (apiKey : String)
    (has : {.read, .haruspex .upsertIdentity, .haruspex .setApiKey, .touchUser} ⊆ effects) :
    (generateApiKey userId apiKey).Within (Cmd.Uses effects) := by
  simp_all [generateApiKey, Set.insert_subset_iff]

@[simp] theorem revokeApiKey_uses (userId : Nat)
    (has : {.read, .haruspex .upsertIdentity, .haruspex .setApiKey, .touchUser} ⊆ effects) :
    (revokeApiKey userId).Within (Cmd.Uses effects) := by
  simp_all [revokeApiKey, Set.insert_subset_iff]

@[simp] theorem ensureApiKey_uses (user : User) (apiKey : String)
    (has : {.read, .haruspex .upsertIdentity, .haruspex .setApiKey, .touchUser} ⊆ effects) :
    (ensureApiKey user apiKey).Within (Cmd.Uses effects) := by
  simp_all [ensureApiKey, Set.insert_subset_iff]

@[simp] theorem createInvites_uses (request : CreateInviteCodeRequest) (codes : List String)
    (has : {.read, .haruspex .upsertIdentity, .haruspex .freshId, .haruspex .createInvite} ⊆
      effects) :
    (createInvites request codes).Within (Cmd.Uses effects) := by
  simp only [Set.insert_subset_iff, Set.singleton_subset_iff] at has
  induction codes with
  | nil => trivial
  | cons code rest ih => simp [createInvites, Set.insert_subset_iff, has, ih]

@[simp] theorem linkTargetAllowed_uses (target : Option Nat)
    (has : .read ∈ effects) :
    (linkTargetAllowed target).Within (Cmd.Uses effects) := by
  cases target <;> simp [linkTargetAllowed, has]

@[simp] theorem generateInviteCodes_uses (request : CreateInviteCodeRequest) (codes : List String)
    (requestingUser : User)
    (has : {.read, .haruspex .upsertIdentity, .haruspex .freshId, .haruspex .createInvite} ⊆
      effects) :
    (generateInviteCodes request codes requestingUser).Within (Cmd.Uses effects) := by
  simp_all [generateInviteCodes, Set.insert_subset_iff]

@[simp] theorem createPlayerPairingCode_uses (grantsRole : UserRole) (maxUses : Int) (code : String)
    (has : {.read, .haruspex .upsertIdentity, .haruspex .freshId, .haruspex .createInvite} ⊆
      effects) :
    (createPlayerPairingCode grantsRole maxUses code).Within (Cmd.Uses effects) := by
  simp_all [createPlayerPairingCode, Set.insert_subset_iff]

@[simp] theorem updateUsername_uses (userId : Nat) (newUsername : String)
    (has : {.read, .setUsername} ⊆ effects) :
    (updateUsername userId newUsername).Within (Cmd.Uses effects) := by
  simp_all [updateUsername, Set.insert_subset_iff]

@[simp] theorem generateSelfAccountLink_uses (userId : Nat) (code : String)
    (has : {.read, .haruspex .upsertIdentity, .haruspex .freshId, .haruspex .createInvite} ⊆
      effects) :
    (generateSelfAccountLink userId code).Within (Cmd.Uses effects) := by
  simp_all [generateSelfAccountLink, Set.insert_subset_iff]

@[simp] theorem createAccountLinkCodeInternal_uses (userId : Nat) (code : String)
    (has : {.read, .haruspex .upsertIdentity, .haruspex .freshId, .haruspex .createInvite} ⊆
      effects) :
    (createAccountLinkCodeInternal userId code).Within (Cmd.Uses effects) := by
  simp_all [createAccountLinkCodeInternal, Set.insert_subset_iff]

@[simp] theorem revokeOwnInviteCode_uses (code : String) (userId : Nat)
    (has : {.read, .haruspex .deactivate} ⊆ effects) :
    (revokeOwnInviteCode code userId).Within (Cmd.Uses effects) := by
  simp_all [revokeOwnInviteCode, Set.insert_subset_iff]

@[simp] theorem checkInviteCode_uses (code : String)
    (has : .read ∈ effects) :
    (checkInviteCode code).Within (Cmd.Uses effects) := by
  simp [checkInviteCode, has]

@[simp] theorem markInviteUsed_uses (code : String) (usedById : Nat)
    (has : {.read, .haruspex .upsertIdentity, .haruspex .stampUsed, .haruspex .incrementUse,
      .haruspex .logRedemption} ⊆ effects) :
    (markInviteUsed code usedById).Within (Cmd.Uses effects) := by
  simp_all [markInviteUsed, Set.insert_subset_iff]

@[simp] theorem deactivateInviteCode_uses (code : String) (requestingUser : User)
    (has : .haruspex .deactivate ∈ effects) :
    (deactivateInviteCode code requestingUser).Within (Cmd.Uses effects) := by
  simp [deactivateInviteCode, has]

@[simp] theorem deactivateAllActiveInvites_uses (requestingUser : User)
    (has : .haruspex .deactivateAllUnused ∈ effects) :
    (deactivateAllActiveInvites requestingUser).Within (Cmd.Uses effects) := by
  simp [deactivateAllActiveInvites, has]

@[simp] theorem updateInviteRole_uses (code : String) (role : UserRole) (requestingUser : User)
    (has : {.read, .haruspex .updateGrantsRole} ⊆ effects) :
    (updateInviteRole code role requestingUser).Within (Cmd.Uses effects) := by
  simp_all [updateInviteRole, Set.insert_subset_iff]

@[simp] theorem syncKnown_uses (userId : Nat) (username message apiKey : String)
    (has : {.read, .updateFederatedProfile, .haruspex .upsertIdentity, .haruspex .setApiKey,
      .touchUser} ⊆ effects) :
    (syncKnown userId username message apiKey).Within (Cmd.Uses effects) := by
  simp_all [syncKnown, Set.insert_subset_iff]

@[simp] theorem linkFederated_uses (existing : User) (username haruspexUserId apiKey : String)
    (has : {.read, .setHaruspexUserId, .haruspex .upsertIdentity, .haruspex .setApiKey,
      .touchUser} ⊆ effects) :
    (linkFederated existing username haruspexUserId apiKey).Within (Cmd.Uses effects) := by
  simp_all [linkFederated, Set.insert_subset_iff]

@[simp] theorem syncByUsername_uses (username haruspexUserId : String) (role : UserRole) (apiKey :
    String)
    (has : {.read, .insertUser, .setHaruspexUserId, .haruspex .upsertIdentity, .haruspex
      .setApiKey, .touchUser} ⊆ effects) :
    (syncByUsername username haruspexUserId role apiKey).Within (Cmd.Uses effects) := by
  simp only [Set.insert_subset_iff, Set.singleton_subset_iff] at has
  simp only [syncByUsername, Prog.within_bind, Prog.within_issue]
  refine ⟨has.1, fun existing _ => ?_⟩
  cases existing <;> simp [Set.insert_subset_iff, has]

@[simp] theorem syncFederatedUser_uses (username haruspexUserId : String) (role : UserRole) (apiKey
    : String)
    (has : {.read, .insertUser, .restoreUser, .updateFederatedProfile, .setHaruspexUserId,
      .haruspex .upsertIdentity, .haruspex .setApiKey, .touchUser} ⊆ effects) :
    (syncFederatedUser username haruspexUserId role apiKey).Within (Cmd.Uses effects) := by
  simp only [Set.insert_subset_iff, Set.singleton_subset_iff] at has
  simp only [syncFederatedUser, Prog.within_bind, Prog.within_issue]
  refine ⟨has.1, fun existing _ => ?_⟩
  cases existing with
  | some existing => simp [Set.insert_subset_iff, has]
  | none =>
    simp only [Prog.within_bind, Prog.within_issue]
    refine ⟨has.1, fun deleted _ => ?_⟩
    split <;> simp [Set.insert_subset_iff, has]

@[simp] theorem upsertPeerNode_uses (userId : Nat) (nodeId : String) (instanceName : Option String)
    (has : {.read, .haruspex .upsertIdentity, .haruspex (.addDevice nodeId)} ⊆ effects) :
    (upsertPeerNode userId nodeId instanceName).Within (Cmd.Uses effects) := by
  simp_all [upsertPeerNode, Set.insert_subset_iff]

@[simp] theorem addPeerNode_uses (userId : Nat) (nodeId : String) (instanceName : Option String)
    (has : {.read, .haruspex .upsertIdentity, .haruspex (.addDevice nodeId)} ⊆ effects) :
    (addPeerNode userId nodeId instanceName).Within (Cmd.Uses effects) := by
  simp_all [addPeerNode, Set.insert_subset_iff]

@[simp] theorem getUserPeerNodes_uses (userId : Nat) (includeDeleted : Bool)
    (has : .read ∈ effects) :
    (getUserPeerNodes userId includeDeleted).Within (Cmd.Uses effects) := by
  simp [getUserPeerNodes, has]

@[simp] theorem removePeerNode_uses (userId : Nat) (nodeId : String)
    (has : {.read, .haruspex .removeDevice} ⊆ effects) :
    (removePeerNode userId nodeId).Within (Cmd.Uses effects) := by
  simp_all [removePeerNode, Set.insert_subset_iff]

@[simp] theorem restorePeerNode_uses (userId : Nat) (nodeId : String)
    (has : {.read, .haruspex (.addDevice nodeId)} ⊆ effects) :
    (restorePeerNode userId nodeId).Within (Cmd.Uses effects) := by
  simp_all [restorePeerNode, Set.insert_subset_iff]

@[simp] theorem hardDeletePeerNode_uses (userId : Nat) (nodeId : String)
    (has : {.read, .haruspex .hardDeleteDevice} ⊆ effects) :
    (hardDeletePeerNode userId nodeId).Within (Cmd.Uses effects) := by
  simp_all [hardDeletePeerNode, Set.insert_subset_iff]

@[simp] theorem hardDeletePeerNodeByNodeId_uses (nodeId : String)
    (has : {.read, .haruspex .hardDeleteDevice} ⊆ effects) :
    (hardDeletePeerNodeByNodeId nodeId).Within (Cmd.Uses effects) := by
  simp_all [hardDeletePeerNodeByNodeId, Set.insert_subset_iff]

@[simp] theorem reassignPeerNodeUser_uses (nodeId : String) (userId : Nat)
    (has : {.read, .haruspex .upsertIdentity, .haruspex (.forceReassignDevice nodeId)} ⊆ effects) :
    (reassignPeerNodeUser nodeId userId).Within (Cmd.Uses effects) := by
  simp_all [reassignPeerNodeUser, Set.insert_subset_iff]

@[simp] theorem touchPeerNode_uses (nodeId : String)
    (has : {.read, .haruspex .touchDevice} ⊆ effects) :
    (touchPeerNode nodeId).Within (Cmd.Uses effects) := by
  simp_all [touchPeerNode, Set.insert_subset_iff]

@[simp] theorem getApiKeyForPeer_uses (nodeId : String) (apiKey : String)
    (has : {.read, .haruspex .upsertIdentity, .haruspex .setApiKey, .touchUser} ⊆ effects) :
    (getApiKeyForPeer nodeId apiKey).Within (Cmd.Uses effects) := by
  simp only [Set.insert_subset_iff, Set.singleton_subset_iff] at has
  simp only [getApiKeyForPeer, Prog.within_bind, Prog.within_mapError]
  refine ⟨findUserByNodeId_uses _ has.1, fun found _ => ⟨Prog.within_ofOption _ _, fun user _ => ?_⟩⟩
  split <;> simp [Set.insert_subset_iff, has]

end UserService

namespace Knock

open UserService

variable {effects : Set Cmd.Effect}

@[simp] theorem createAccount_uses (policy : GrimoireKnockPolicy) (username : String)
    (has : {.read, .insertUser, .haruspex .upsertIdentity, .haruspex .stampUsed, .haruspex
      .incrementUse, .haruspex .logRedemption} ⊆ effects) :
    (createAccount policy username).Within (Cmd.Uses effects) := by
  simp_all [createAccount, Set.insert_subset_iff]

@[simp] theorem resolveUser_uses (policy : GrimoireKnockPolicy) (username : String)
    (has : {.read, .insertUser, .haruspex .upsertIdentity, .haruspex .stampUsed, .haruspex
      .incrementUse, .haruspex .logRedemption} ⊆ effects) :
    (resolveUser policy username).Within (Cmd.Uses effects) := by
  simp only [Set.insert_subset_iff, Set.singleton_subset_iff] at has
  obtain ⟨role, usernameOverride, existingUserId⟩ := policy
  cases existingUserId with
  | some userId => simp [resolveUser, has]
  | none =>
    simp only [resolveUser, Prog.within_bind, Prog.within_result, getUserByUsername_uses _ has.1,
      true_and]
    rintro (_ | existing) _ <;> simp [Set.insert_subset_iff, has]

@[simp] theorem onAccept_uses (policy : GrimoireKnockPolicy) (knock : Haruspex.KnockRecord)
    (has : {.read, .insertUser, .haruspex .upsertIdentity, .haruspex .stampUsed, .haruspex
      .incrementUse, .haruspex .logRedemption, .haruspex (.addDevice knock.nodeId)} ⊆ effects) :
    (onAccept policy knock).Within (Cmd.Uses effects) := by
  simp only [Set.insert_subset_iff, Set.singleton_subset_iff] at has
  simp only [onAccept]
  split <;> simp [Set.insert_subset_iff, has]

@[simp] theorem createKnock_uses (nodeId username message : String)
    (has : {.read, .haruspex .createKnock} ⊆ effects) :
    (createKnock nodeId username message).Within (Cmd.Uses effects) := by
  simp only [Set.insert_subset_iff, Set.singleton_subset_iff] at has
  simp only [createKnock, Prog.within_bind, Prog.within_issue, Prog.within_require, true_and]
  refine fun _ _ _ _ => ⟨has.1, fun existing _ => ?_⟩
  cases existing <;> simp [Set.insert_subset_iff, has]

@[simp] theorem pendingKnock_uses (id : Uuid)
    (has : .read ∈ effects) :
    (pendingKnock id).Within (Cmd.Uses effects) := by
  simp [pendingKnock, has]

@[simp] theorem refuseSoftDeleted_uses (nodeId : String)
    (has : .read ∈ effects) :
    (refuseSoftDeleted nodeId).Within (Cmd.Uses effects) := by
  simp only [refuseSoftDeleted, Prog.within_bind, Prog.within_issue]
  refine ⟨has, fun device _ => ?_⟩
  cases device with
  | none => trivial
  | some device =>
    simp only [Prog.within_bind, grimoireUserIdForIdentity_uses _ has, true_and]
    rintro (_ | userId) _
    · trivial
    · simp only [Prog.within_bind, Prog.within_issue]
      refine ⟨has, fun existing _ => ?_⟩
      cases existing <;> simp

@[simp] theorem recordOutcome_uses (id : Uuid) (adminUserId : String) (outcome :
    Haruspex.KnockStatus)
    (has : {.read, .haruspex .recordDecision} ⊆ effects) :
    (recordOutcome id adminUserId outcome).Within (Cmd.Uses effects) := by
  simp_all [recordOutcome, Set.insert_subset_iff]

@[simp] theorem acceptPending_uses (id : Uuid) (request : ProcessKnockRequest)
    (adminUserId : String) (record : Haruspex.KnockRecord)
    (has : {.read, .insertUser, .haruspex .upsertIdentity, .haruspex .stampUsed,
      .haruspex .incrementUse, .haruspex .logRedemption, .haruspex .recordDecision,
      .haruspex (.addDevice record.nodeId)} ⊆ effects) :
    (acceptPending id request adminUserId record).Within (Cmd.Uses effects) := by
  simp_all [acceptPending, Set.insert_subset_iff]

@[simp] theorem acceptKnock_uses (id : Uuid) (request : ProcessKnockRequest) (adminUserId : String)
    (has : {.read, .insertUser, .haruspex .upsertIdentity, .haruspex .stampUsed,
      .haruspex .incrementUse, .haruspex .logRedemption, .haruspex .recordDecision} ⊆ effects)
    (link : ∀ nodeId, .haruspex (.addDevice nodeId) ∈ effects) :
    (acceptKnock id request adminUserId).Within (Cmd.Uses effects) := by
  simp only [Set.insert_subset_iff, Set.singleton_subset_iff] at has
  simp [acceptKnock, Set.insert_subset_iff, has, link]

@[simp] theorem rejectKnock_uses (id : Uuid) (adminUserId : String)
    (has : {.read, .haruspex .recordDecision} ⊆ effects) :
    (rejectKnock id adminUserId).Within (Cmd.Uses effects) := by
  simp_all [rejectKnock, Set.insert_subset_iff]

@[simp] theorem deleteKnock_uses (id : Uuid)
    (has : .haruspex .deleteKnock ∈ effects) :
    (deleteKnock id).Within (Cmd.Uses effects) := by
  simp [deleteKnock, has]

@[simp] theorem denyAll_uses (adminUserId : String) (now : Int) (knocks : List Haruspex.KnockRecord)
    (has : {.read, .haruspex .recordDecision} ⊆ effects) :
    (denyAll adminUserId now knocks).Within (Cmd.Uses effects) := by
  simp only [Set.insert_subset_iff, Set.singleton_subset_iff] at has
  induction knocks with
  | nil => trivial
  | cons record rest ih => simp [denyAll, Set.insert_subset_iff, has, ih]

@[simp] theorem rejectAllKnocks_uses (adminUserId : String)
    (has : {.read, .haruspex .recordDecision} ⊆ effects) :
    (rejectAllKnocks adminUserId).Within (Cmd.Uses effects) := by
  simp_all [rejectAllKnocks, Set.insert_subset_iff]

end Knock

namespace Webauthn

open UserService
open Haruspex.Webauthn (PasskeyRp RegisterFinishOutcome)

variable {effects : Set Cmd.Effect}

@[simp] theorem relyingParty_within {allowed : {β : Type} → Cmd β → Prop} (site : Site)
    (origin : String) : (relyingParty site origin).Within allowed := by
  simp [relyingParty]

@[simp] theorem ensurePendingIdentityForNewRegistration_uses (username : String) (now : Int)
    (has : {.read, .haruspex .freshId, .haruspex .upsertIdentity} ⊆ effects) :
    (ensurePendingIdentityForNewRegistration username now).Within (Cmd.Uses effects) := by
  simp_all [ensurePendingIdentityForNewRegistration, Set.insert_subset_iff]

@[simp] theorem accountLinkIdentity_uses (invite : InviteCode) (username : String) (now : Int)
    (has : {.read, .haruspex .upsertIdentity} ⊆ effects) :
    (accountLinkIdentity invite username now).Within (Cmd.Uses effects) := by
  simp_all [accountLinkIdentity, Set.insert_subset_iff]

@[simp] theorem codeIdentity_uses (code username : String) (now : Int)
    (has : {.read, .haruspex .freshId, .haruspex .upsertIdentity} ⊆ effects) :
    (codeIdentity code username now).Within (Cmd.Uses effects) := by
  simp_all [codeIdentity, Set.insert_subset_iff]

@[simp] theorem knownNodeIdentity_uses (nodeId username : String) (now : Int)
    (has : {.read, .haruspex .upsertIdentity} ⊆ effects) :
    (knownNodeIdentity nodeId username now).Within (Cmd.Uses effects) := by
  simp_all [knownNodeIdentity, Set.insert_subset_iff]

@[simp] theorem httpIdentity_uses (inviteCode : Option String) (username : String) (now : Int)
    (has : {.read, .haruspex .freshId, .haruspex .upsertIdentity} ⊆ effects) :
    (httpIdentity inviteCode username now).Within (Cmd.Uses effects) := by
  simp only [Set.insert_subset_iff, Set.singleton_subset_iff] at has
  cases inviteCode <;> simp [httpIdentity, Set.insert_subset_iff, has]

@[simp] theorem p2pIdentity_uses (inviteCode nodeId : Option String) (username : String) (now : Int)
    (has : {.read, .haruspex .freshId, .haruspex .upsertIdentity} ⊆ effects) :
    (p2pIdentity inviteCode nodeId username now).Within (Cmd.Uses effects) := by
  simp only [Set.insert_subset_iff, Set.singleton_subset_iff] at has
  cases inviteCode <;> cases nodeId <;> simp [p2pIdentity, Set.insert_subset_iff, has]

@[simp] theorem startRegistration_uses (site : Site) (rp : PasskeyRp) (origin username : String)
    (inviteCode : Option String) (now : Int) (identity : Uuid × Bool)
    (has : {.read, .haruspex .saveChallenge} ⊆ effects) :
    (startRegistration site rp origin username inviteCode now identity).Within (Cmd.Uses effects) := by
  simp_all [startRegistration, Set.insert_subset_iff]

@[simp] theorem finishAccountLink_uses (identityId : Uuid) (username : String) (inviteCode : Option
    String)
    (has : {.read, .insertUser, .haruspex .upsertIdentity, .haruspex .stampUsed, .haruspex
      .incrementUse, .haruspex .logRedemption} ⊆ effects) :
    (finishAccountLink identityId username inviteCode).Within (Cmd.Uses effects) := by
  simp only [Set.insert_subset_iff, Set.singleton_subset_iff] at has
  cases inviteCode <;> simp [finishAccountLink, Set.insert_subset_iff, has]

@[simp] theorem finishNewUser_uses (identityId : Uuid) (username : String) (inviteCode : Option
    String)
    (has : {.read, .insertUser, .haruspex .upsertIdentity, .haruspex .stampUsed, .haruspex
      .incrementUse, .haruspex .logRedemption} ⊆ effects) :
    (finishNewUser identityId username inviteCode).Within (Cmd.Uses effects) := by
  simp_all [finishNewUser, Set.insert_subset_iff]

@[simp] theorem settleRegistration_uses (outcome : RegisterFinishOutcome)
    (has : {.read, .insertUser, .haruspex .upsertIdentity, .haruspex .stampUsed, .haruspex
      .incrementUse, .haruspex .logRedemption} ⊆ effects) :
    (settleRegistration outcome).Within (Cmd.Uses effects) := by
  simp_all [settleRegistration, Set.insert_subset_iff]

@[simp] theorem loginIdentity_uses (username : Option String) (now : Int)
    (has : {.read, .haruspex .upsertIdentity} ⊆ effects) :
    (loginIdentity username now).Within (Cmd.Uses effects) := by
  simp only [Set.insert_subset_iff, Set.singleton_subset_iff] at has
  simp only [loginIdentity]
  split <;> simp [has]

@[simp] theorem settleLogin_uses (identityId : Uuid)
    (has : .read ∈ effects) :
    (settleLogin identityId).Within (Cmd.Uses effects) := by
  simp [settleLogin, has]

@[simp] theorem registerStart_uses (site : Site) (origin username : String) (inviteCode : Option
    String)
    (has : {.read, .haruspex .freshId, .haruspex .upsertIdentity, .haruspex .saveChallenge} ⊆
      effects) :
    (registerStart site origin username inviteCode).Within (Cmd.Uses effects) := by
  simp_all [registerStart, Set.insert_subset_iff]

@[simp] theorem registerFinish_uses (site : Site) (origin : String) (nonce : Uuid) (credential :
    String)
    (has : {.read, .insertUser, .haruspex .upsertIdentity, .haruspex .stampUsed, .haruspex
      .incrementUse, .haruspex .logRedemption, .haruspex .takeChallenge, .haruspex .addCredential}
      ⊆ effects) :
    (registerFinish site origin nonce credential).Within (Cmd.Uses effects) := by
  simp_all [registerFinish, Set.insert_subset_iff]

@[simp] theorem loginStart_uses (site : Site) (origin : String) (username : Option String)
    (has : {.read, .haruspex .upsertIdentity, .haruspex .saveChallenge} ⊆ effects) :
    (loginStart site origin username).Within (Cmd.Uses effects) := by
  simp_all [loginStart, Set.insert_subset_iff]

@[simp] theorem loginFinish_uses (site : Site) (origin : String) (nonce : Uuid) (credential :
    String)
    (has : {.read, .haruspex .takeChallenge, .haruspex .touchLastUsed} ⊆ effects) :
    (loginFinish site origin nonce credential).Within (Cmd.Uses effects) := by
  simp_all [loginFinish, Set.insert_subset_iff]

end Webauthn

namespace WebauthnP2p

open UserService Webauthn

variable {effects : Set Cmd.Effect}

@[simp] theorem validateOrigin_within {allowed : {β : Type} → Cmd β → Prop} (site : Site)
    (origin : String) : (validateOrigin site origin).Within allowed := by
  simp [validateOrigin]

@[simp] theorem linkPeer_uses (userId : Nat) (nodeId : Option String) (instanceName : String)
    (has : {.read, .haruspex .upsertIdentity} ⊆ effects)
    (link : ∀ node ∈ nodeId, .haruspex (.addDevice node) ∈ effects) :
    (linkPeer userId nodeId instanceName).Within (Cmd.Uses effects) := by
  simp only [Set.insert_subset_iff, Set.singleton_subset_iff] at has
  cases nodeId <;> simp_all [linkPeer, Set.insert_subset_iff]

@[simp] theorem registerStart_uses (site : Site) (origin username : String) (inviteCode nodeId :
    Option String)
    (has : {.read, .haruspex .freshId, .haruspex .upsertIdentity, .haruspex .saveChallenge} ⊆
      effects) :
    (registerStart site origin username inviteCode nodeId).Within (Cmd.Uses effects) := by
  simp_all [registerStart, Set.insert_subset_iff]

@[simp] theorem registerFinish_uses (site : Site) (origin : String) (nonce : Uuid) (credential :
    String) (nodeId : Option String)
    (has : {.read, .insertUser, .haruspex .upsertIdentity, .haruspex .stampUsed, .haruspex
      .incrementUse, .haruspex .logRedemption, .haruspex .takeChallenge, .haruspex .addCredential}
      ⊆ effects)
    (link : ∀ node ∈ nodeId, .haruspex (.addDevice node) ∈ effects) :
    (registerFinish site origin nonce credential nodeId).Within (Cmd.Uses effects) := by
  simp only [Set.insert_subset_iff, Set.singleton_subset_iff] at has
  cases nodeId <;> simp_all [registerFinish, Set.insert_subset_iff]

@[simp] theorem loginStart_uses (site : Site) (origin : String) (username : Option String)
    (has : {.read, .haruspex .upsertIdentity, .haruspex .saveChallenge} ⊆ effects) :
    (loginStart site origin username).Within (Cmd.Uses effects) := by
  simp_all [loginStart, Set.insert_subset_iff]

@[simp] theorem loginFinish_uses (site : Site) (origin : String) (nonce : Uuid) (credential :
    String) (nodeId : Option String)
    (has : {.read, .haruspex .upsertIdentity, .haruspex .takeChallenge, .haruspex .touchLastUsed}
      ⊆ effects)
    (link : ∀ node ∈ nodeId, .haruspex (.addDevice node) ∈ effects) :
    (loginFinish site origin nonce credential nodeId).Within (Cmd.Uses effects) := by
  simp only [Set.insert_subset_iff, Set.singleton_subset_iff] at has
  cases nodeId <;> simp_all [loginFinish, Set.insert_subset_iff]

end WebauthnP2p

end Tomb.Grimoire
