import Mathlib.Data.Set.Insert
import Tomb.Haruspex.Stores
import Tomb.Lib.Prog

/-! The stores' methods as programs: one command per sql statement or transaction, and the clock
and the id generator as commands of their own. -/
namespace Tomb.Haruspex
open Tomb.Lib

inductive Cmd : Type → Type where
  | now : Cmd Int
  | freshId : Cmd Uuid
  | upsertIdentity (identity : Identity) : Cmd (Except StoreError Identity)
  | getIdentity (id : Uuid) : Cmd (Option Identity)
  | addDevice (device : DeviceNode) : Cmd (Except StoreError Unit)
  | resolveDevice (nodeId : String) : Cmd (Option DeviceNode)
  | touchDevice (nodeId : String) (lastSeenAt : Int) : Cmd Unit
  | removeDevice (nodeId : String) : Cmd Unit
  | devicesForIdentity (id : Uuid) : Cmd (List DeviceNode)
  | setApiKey (id : Uuid) (apiKey : Option String) : Cmd (Except StoreError Unit)
  | hasApiKey (id : Uuid) : Cmd Bool
  | findByApiKey (apiKey : String) : Cmd (Option Identity)
  | hardDeleteDevice (nodeId : String) : Cmd Unit
  | hardDeleteIdentity (id : Uuid) : Cmd Unit
  | forceReassignDevice (nodeId : String) (id : Uuid) : Cmd (Except StoreError Unit)
  | addCredential (credential : Credential) : Cmd (Except StoreError Credential)
  | getCredential (credentialId : CredentialId) : Cmd (Option Credential)
  | listForIdentity (id : Uuid) : Cmd (List Credential)
  | touchLastUsed (credentialId : CredentialId) (lastUsedAt : Int) : Cmd Unit
  | saveChallenge (args : SaveChallengeArgs) : Cmd Uuid
  | takeChallenge (nonce : Uuid) (expectedKind : ChallengeKind) (now : Int) :
      Cmd (Option Challenge)
  | createInvite (invite : InviteCode) : Cmd (Except StoreError InviteCode)
  | findByCode (code : String) : Cmd (Option InviteCode)
  | stampUsed (code : String) (usedBy : Uuid) (usedAt : Int) : Cmd (Except StoreError Unit)
  | incrementUse (code : String) : Cmd Unit
  | logRedemption (inviteId usedBy : Uuid) (usedAt : Int) : Cmd (Except StoreError Unit)
  | deactivate (code : String) : Cmd Unit
  | listActive : Cmd (List InviteCode)
  | listAllInvites : Cmd (List InviteCode)
  | deactivateAllUnused : Cmd Nat
  | updateGrantsRole (code : String) (role : Role) : Cmd Unit
  | createKnock (nodeId : String) (direction : KnockDirection) (scope : KnockScope)
      (message : String) (createdAt : Int) (metadata : Option String) : Cmd (Except StoreError Uuid)
  | getKnock (id : Uuid) : Cmd (Option KnockRecord)
  | listPending : Cmd (List KnockRecord)
  | findKnockByNodeId (nodeId : String) : Cmd (Option KnockRecord)
  | recordDecision (id : Uuid) (decision : KnockDecision) : Cmd (Except StoreError Unit)
  | deleteKnock (id : Uuid) : Cmd (Except StoreError Unit)

namespace Cmd

def exec : {β : Type} → Cmd β → Stores → β × Stores
  | _, .now, s => (s.now, s)
  | _, .freshId, s => s.freshId
  | _, .upsertIdentity identity, s => s.upsertIdentity identity
  | _, .getIdentity id, s => (s.getIdentity id, s)
  | _, .addDevice device, s => s.addDevice device
  | _, .resolveDevice nodeId, s => (s.resolveDevice nodeId, s)
  | _, .touchDevice nodeId lastSeenAt, s => ((), s.touchDevice nodeId lastSeenAt)
  | _, .removeDevice nodeId, s => ((), s.removeDevice nodeId)
  | _, .devicesForIdentity id, s => (s.devicesForIdentity id, s)
  | _, .setApiKey id apiKey, s => s.setApiKey id apiKey
  | _, .hasApiKey id, s => (s.hasApiKey id, s)
  | _, .findByApiKey apiKey, s => (s.findByApiKey apiKey, s)
  | _, .hardDeleteDevice nodeId, s => ((), s.hardDeleteDevice nodeId)
  | _, .hardDeleteIdentity id, s => ((), s.hardDeleteIdentity id)
  | _, .forceReassignDevice nodeId id, s => s.forceReassignDevice nodeId id
  | _, .addCredential credential, s => s.addCredential credential
  | _, .getCredential credentialId, s => (s.getCredential credentialId, s)
  | _, .listForIdentity id, s => (s.listForIdentity id, s)
  | _, .touchLastUsed credentialId lastUsedAt, s => ((), s.touchLastUsed credentialId lastUsedAt)
  | _, .saveChallenge args, s => s.saveChallenge args
  | _, .takeChallenge nonce expectedKind time, s => s.takeChallenge nonce expectedKind time
  | _, .createInvite invite, s => s.createInvite invite
  | _, .findByCode code, s => (s.findByCode code, s)
  | _, .stampUsed code usedBy usedAt, s => s.stampUsed code usedBy usedAt
  | _, .incrementUse code, s => ((), s.incrementUse code)
  | _, .logRedemption inviteId usedBy usedAt, s => s.logRedemption inviteId usedBy usedAt
  | _, .deactivate code, s => ((), s.deactivate code)
  | _, .listActive, s => (s.listActive, s)
  | _, .listAllInvites, s => (s.listAllInvites, s)
  | _, .deactivateAllUnused, s => s.deactivateAllUnused
  | _, .updateGrantsRole code role, s => ((), s.updateGrantsRole code role)
  | _, .createKnock nodeId direction scope message createdAt metadata, s =>
    s.createKnock nodeId direction scope message createdAt metadata
  | _, .getKnock id, s => (s.getKnock id, s)
  | _, .listPending, s => (s.listPending, s)
  | _, .findKnockByNodeId nodeId, s => (s.findKnockByNodeId nodeId, s)
  | _, .recordDecision id decision, s => s.recordDecision id decision
  | _, .deleteKnock id, s => s.deleteKnock id

/-- The statements that write, with the node id that they may bring to life, and one name for all
that only read. -/
inductive Effect where
  | read
  | freshId
  | upsertIdentity
  | addDevice (nodeId : String)
  | touchDevice
  | removeDevice
  | setApiKey
  | hardDeleteDevice
  | hardDeleteIdentity
  | forceReassignDevice (nodeId : String)
  | addCredential
  | touchLastUsed
  | saveChallenge
  | takeChallenge
  | createInvite
  | stampUsed
  | incrementUse
  | logRedemption
  | deactivate
  | deactivateAllUnused
  | updateGrantsRole
  | createKnock
  | recordDecision
  | deleteKnock
  deriving DecidableEq

@[simp] def effect : {β : Type} → Cmd β → Effect
  | _, .now => .read
  | _, .freshId => .freshId
  | _, .upsertIdentity _ => .upsertIdentity
  | _, .getIdentity _ => .read
  | _, .addDevice device => .addDevice device.nodeId
  | _, .resolveDevice _ => .read
  | _, .touchDevice _ _ => .touchDevice
  | _, .removeDevice _ => .removeDevice
  | _, .devicesForIdentity _ => .read
  | _, .setApiKey _ _ => .setApiKey
  | _, .hasApiKey _ => .read
  | _, .findByApiKey _ => .read
  | _, .hardDeleteDevice _ => .hardDeleteDevice
  | _, .hardDeleteIdentity _ => .hardDeleteIdentity
  | _, .forceReassignDevice nodeId _ => .forceReassignDevice nodeId
  | _, .addCredential _ => .addCredential
  | _, .getCredential _ => .read
  | _, .listForIdentity _ => .read
  | _, .touchLastUsed _ _ => .touchLastUsed
  | _, .saveChallenge _ => .saveChallenge
  | _, .takeChallenge _ _ _ => .takeChallenge
  | _, .createInvite _ => .createInvite
  | _, .findByCode _ => .read
  | _, .stampUsed _ _ _ => .stampUsed
  | _, .incrementUse _ => .incrementUse
  | _, .logRedemption _ _ _ => .logRedemption
  | _, .deactivate _ => .deactivate
  | _, .listActive => .read
  | _, .listAllInvites => .read
  | _, .deactivateAllUnused => .deactivateAllUnused
  | _, .updateGrantsRole _ _ => .updateGrantsRole
  | _, .createKnock _ _ _ _ _ _ => .createKnock
  | _, .getKnock _ => .read
  | _, .listPending => .read
  | _, .findKnockByNodeId _ => .read
  | _, .recordDecision _ _ => .recordDecision
  | _, .deleteKnock _ => .deleteKnock

def Uses (effects : Set Effect) {β : Type} (command : Cmd β) : Prop :=
  command.effect ∈ effects

@[simp] theorem uses_iff (effects : Set Effect) {β : Type} (command : Cmd β) :
    command.Uses effects ↔ command.effect ∈ effects := Iff.rfl

end Cmd

/-! What a command may change. -/

inductive Relation where
  | clock
  | serial
  | identities
  | devices
  | apiKeys
  | credentials
  | challenges
  | invites
  | redemptions
  | knocks
  deriving DecidableEq

def Cmd.Effect.writes : Effect → List Relation
  | .read => []
  | .freshId => [.serial]
  | .upsertIdentity => [.identities]
  | .addDevice _ | .touchDevice | .removeDevice | .hardDeleteDevice | .forceReassignDevice _ =>
    [.devices]
  | .setApiKey => [.apiKeys]
  | .hardDeleteIdentity =>
    [.identities, .devices, .apiKeys, .credentials, .invites, .redemptions]
  | .addCredential => [.serial, .credentials]
  | .touchLastUsed => [.credentials]
  | .saveChallenge => [.serial, .challenges]
  | .takeChallenge => [.challenges]
  | .createInvite | .stampUsed | .incrementUse | .deactivate | .deactivateAllUnused |
    .updateGrantsRole => [.invites]
  | .logRedemption => [.serial, .redemptions]
  | .createKnock => [.serial, .knocks]
  | .recordDecision | .deleteKnock => [.knocks]

@[grind =] def Relation.same (s t : Stores) : Relation → Prop
  | .clock => s.now = t.now
  | .serial => s.serial = t.serial
  | .identities => s.identities = t.identities
  | .devices => s.devices = t.devices
  | .apiKeys => s.apiKeys = t.apiKeys
  | .credentials => s.credentials = t.credentials
  | .challenges => s.challenges = t.challenges
  | .invites => s.invites = t.invites
  | .redemptions => s.redemptions = t.redemptions
  | .knocks => s.knocks = t.knocks

theorem Relation.same_refl (s : Stores) (relation : Relation) : relation.same s s := by
  cases relation <;> rfl

theorem Cmd.exec_read {β : Type} (command : Cmd β) (s : Stores) (reads : command.effect = .read) :
    (command.exec s).2 = s := by
  cases command <;> first | rfl | cases reads

theorem Cmd.exec_frame {β : Type} (command : Cmd β) (s : Stores) {relation : Relation}
    (other : relation ∉ command.effect.writes) : relation.same (command.exec s).2 s := by
  by_cases reads : command.effect = .read
  · rw [command.exec_read s reads]
    exact relation.same_refl s
  · cases command <;> first
    | exact absurd rfl reads
    | (cases relation <;> first
      | rfl
      | (refine absurd ?_ other
         simp only [effect, Effect.writes, List.mem_cons, true_or, or_true]
         done))
    -- What a guarded statement leaves is seen only behind its guards.
    | (simp only [exec, Stores.upsertIdentity, Stores.addDevice, Stores.forceReassignDevice,
        Stores.addCredential, Stores.takeChallenge, Stores.createInvite, Stores.stampUsed,
        Stores.logRedemption, Stores.createKnock, Stores.recordDecision, Stores.deleteKnock,
        Stores.setApiKey.eq_def]
       repeat' split
       all_goals cases relation <;> first
         | rfl
         | (refine absurd ?_ other
            simp only [effect, Effect.writes, List.mem_cons, true_or, or_true]))

instance : Machine Cmd Stores := ⟨Cmd.exec⟩

@[simp] theorem machine_exec {β : Type} (command : Cmd β) (s : Stores) :
    Machine.exec command s = command.exec s := rfl

def addDevice (device : DeviceNode) : Prog Cmd StoreError DeviceNode := do
  Prog.attempt (.addDevice device)
  Prog.ofOption .notFound (← Prog.issue (.resolveDevice device.nodeId))

/-- One redemption: find the code, stamp its first use, count the use and log it, each its own
statement. -/
def markUsed (code : String) (usedBy : Uuid) (usedAt : Int) : Prog Cmd StoreError InviteCode := do
  let invite ← Prog.ofOption .notFound (← Prog.issue (.findByCode code))
  if invite.usedAt.isNone then
    Prog.attempt (.stampUsed code usedBy usedAt)
  Prog.issue (.incrementUse code)
  Prog.attempt (.logRedemption invite.id usedBy usedAt)
  Prog.ofOption .notFound (← Prog.issue (.findByCode code))

def updateGrantsRole (code : String) (role : Role) : Prog Cmd StoreError InviteCode := do
  Prog.issue (.updateGrantsRole code role)
  Prog.ofOption .notFound (← Prog.issue (.findByCode code))

def createKnock (nodeId : String) (direction : KnockDirection) (scope : KnockScope)
    (message : String) (createdAt : Int) (metadata : Option String) :
    Prog Cmd StoreError KnockRecord := do
  let id ← Prog.attempt (.createKnock nodeId direction scope message createdAt metadata)
  Prog.ofOption .notFound (← Prog.issue (.getKnock id))

def recordDecision (id : Uuid) (decision : KnockDecision) : Prog Cmd StoreError KnockRecord := do
  Prog.attempt (.recordDecision id decision)
  Prog.ofOption .notFound (← Prog.issue (.getKnock id))

/-! The footprints of the programs. -/

section Footprint

variable {effects : Set Cmd.Effect}

@[simp] theorem addDevice_uses (device : DeviceNode) (has : {.read, .addDevice device.nodeId} ⊆ effects) :
    (addDevice device).Within (Cmd.Uses effects) := by
  simpa [addDevice, Cmd.effect, Set.insert_subset_iff, and_comm] using has

@[simp] theorem markUsed_uses (code : String) (usedBy : Uuid) (usedAt : Int)
    (has : {.read, .stampUsed, .incrementUse, .logRedemption} ⊆ effects) :
    (markUsed code usedBy usedAt).Within (Cmd.Uses effects) := by
  simp only [Set.insert_subset_iff, Set.singleton_subset_iff] at has
  simp [markUsed, Cmd.effect, has]

@[simp] theorem updateGrantsRole_uses (code : String) (role : Role)
    (has : {.read, .updateGrantsRole} ⊆ effects) :
    (updateGrantsRole code role).Within (Cmd.Uses effects) := by
  simpa [updateGrantsRole, Cmd.effect, Set.insert_subset_iff, and_comm] using has

@[simp] theorem createKnock_uses (nodeId : String) (direction : KnockDirection)
    (scope : KnockScope) (message : String) (createdAt : Int) (metadata : Option String)
    (has : {.read, .createKnock} ⊆ effects) :
    (createKnock nodeId direction scope message createdAt metadata).Within
      (Cmd.Uses effects) := by
  simp only [Set.insert_subset_iff, Set.singleton_subset_iff] at has
  simp [createKnock, Cmd.effect, has]

@[simp] theorem recordDecision_uses (id : Uuid) (decision : KnockDecision)
    (has : {.read, .recordDecision} ⊆ effects) :
    (recordDecision id decision).Within (Cmd.Uses effects) := by
  simpa [recordDecision, Cmd.effect, Set.insert_subset_iff, and_comm] using has

end Footprint

end Tomb.Haruspex
