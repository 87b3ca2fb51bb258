import Tomb.Haruspex.Program

/-! The four passkey ceremonies. The relying party stands for the webauthn library: whether an
attestation or an assertion is accepted, and what it yields, is its answer. -/
namespace Tomb.Haruspex.Webauthn
open Tomb.Lib

inductive WebauthnError where
  | store (error : StoreError)
  | invalidChallenge
  | invalidCredential (message : String)
  | ceremony (message : String)
  | noCredentials
  | authenticationFailed

/-- What a verified registration yields: the raw credential id and the passkey's json. -/
structure Passkey where
  credId : CredentialId
  json : String

/-- The relying party of one call. Challenge states and credentials travel as json texts; a start
answers with the client's challenge and the state to keep. -/
structure PasskeyRp where
  decodePasskey : String → Except String Passkey
  startRegistration : String → Uuid → String → List CredentialId → Except String (String × String)
  (decodeRegistrationState decodeRegistrationCredential : String → Except String String)
  finishRegistration : String → String → String → Except String Passkey
  startAuthentication : String → List Passkey → Except String (String × String)
  startDiscoverableAuthentication : String → Except String (String × String)
  (decodeAuthenticationState decodeDiscoverableState : String → Except String String)
  decodeAuthenticationCredential : String → Except String String
  credentialIdOf : String → CredentialId
  finishAuthentication : String → String → String → Except String CredentialId
  finishDiscoverableAuthentication :
    String → String → String → List Passkey → Except String CredentialId

/-- A relying party whose every check succeeds: an attestation or an assertion is the text of its
credential, and a challenge is the name that it was started for. -/
def trustingRp : PasskeyRp where
  decodePasskey json := .ok ⟨textId json, json⟩
  startRegistration _ _ username _ := .ok (username, username)
  decodeRegistrationState := .ok
  decodeRegistrationCredential := .ok
  finishRegistration _ credential _ := .ok ⟨textId credential, credential⟩
  startAuthentication _ _ := .ok ("", "")
  startDiscoverableAuthentication _ := .ok ("", "")
  decodeAuthenticationState := .ok
  decodeDiscoverableState := .ok
  decodeAuthenticationCredential := .ok
  credentialIdOf := textId
  finishAuthentication _ credential _ := .ok (textId credential)
  finishDiscoverableAuthentication _ credential _ _ := .ok (textId credential)
where
  textId (text : String) : CredentialId := text.toList.map fun c => UInt8.ofNat c.toNat

structure RegisterFinishOutcome where
  credential : Credential
  isAccountLink : Bool
  inviteCode : Option String

structure RegisterStartArgs where
  identityId : Uuid
  username : String
  isAccountLink : Bool
  inviteCode : Option String
  (now challengeTtlSecs : Int)

abbrev Ceremony (α : Type) := Prog Cmd WebauthnError α

def orCeremony {α : Type} (value : Except String α) : Ceremony α :=
  Prog.ofExcept (value.mapError .ceremony)

def orInvalid {α : Type} (value : Except String α) : Ceremony α :=
  Prog.ofExcept (value.mapError .invalidCredential)

def prefixed {α : Type} (what : String) (result : Except String α) : Except String α :=
  result.mapError fun message => what ++ message

def storedPasskeys (rp : PasskeyRp) (identityId : Uuid) : Ceremony (List Passkey) := do
  let credentials ← Prog.issue (.listForIdentity identityId)
  orCeremony (credentials.mapM fun credential =>
    prefixed "stored passkey is corrupt: " (rp.decodePasskey credential.credentialData))

def linkNode (identityId : Uuid) (nodeId : String) (now : Int) : Ceremony Unit := do
  let _ ← (addDevice ⟨identityId, nodeId, none, now, now, none⟩).mapError .store

def registerStart (rp : PasskeyRp) (origin : String) (args : RegisterStartArgs) :
    Ceremony (String × Uuid) := do
  let excludeCredentials ← if args.isAccountLink then do
      let passkeys ← storedPasskeys rp args.identityId
      pure (passkeys.map Passkey.credId)
    else pure []
  let (ccr, regState) ← orCeremony
    (rp.startRegistration origin args.identityId args.username excludeCredentials)
  let nonce ← Prog.issue (.saveChallenge
    { kind := .registration
      challengeJson := regState
      identityId := some args.identityId
      username := some args.username
      isAccountLink := args.isAccountLink
      inviteCode := args.inviteCode
      createdAt := args.now
      expiresAt := args.now + args.challengeTtlSecs })
  return (ccr, nonce)

def registerFinish (rp : PasskeyRp) (origin : String) (nonce : Uuid) (credential : String)
    (nodeId : Option String) (now : Int) : Ceremony RegisterFinishOutcome := do
  let challenge ← Prog.ofOption .invalidChallenge
    (← Prog.issue (.takeChallenge nonce .registration now))
  let identityId ← Prog.ofOption (.ceremony "challenge missing identity_id")
    challenge.identityId
  let regState ← orCeremony (prefixed "failed to deserialize challenge: "
    (rp.decodeRegistrationState challenge.challengeJson))
  let regCredential ← orInvalid (rp.decodeRegistrationCredential credential)
  let passkey ← orCeremony (rp.finishRegistration origin regCredential regState)
  let saved ← (Prog.attempt (.addCredential
    { id := .v4 0
      identityId := identityId
      credentialId := passkey.credId
      credentialData := passkey.json
      name := none
      createdAt := now
      lastUsedAt := none
      deletedAt := none })).mapError .store
  if let some nodeId := nodeId then
    linkNode identityId nodeId now
  return ⟨saved, challenge.isAccountLink, challenge.inviteCode⟩

def loginStart (rp : PasskeyRp) (origin : String) (identity : Option (Uuid × String)) (now : Int)
    (challengeTtlSecs : Int) : Ceremony (String × Uuid) := do
  match identity with
  | some (identityId, username) =>
    let passkeys ← storedPasskeys rp identityId
    if passkeys.isEmpty then
      .fail .noCredentials
    else
      let (rcr, authState) ← orCeremony (rp.startAuthentication origin passkeys)
      let nonce ← Prog.issue (.saveChallenge
        { kind := .authentication
          challengeJson := authState
          identityId := some identityId
          username := some username
          isAccountLink := false
          inviteCode := none
          createdAt := now
          expiresAt := now + challengeTtlSecs })
      return (rcr, nonce)
  | none =>
    let (rcr, authState) ← orCeremony (rp.startDiscoverableAuthentication origin)
    let nonce ← Prog.issue (.saveChallenge
      { kind := .discoverableAuthentication
        challengeJson := authState
        identityId := none
        username := none
        isAccountLink := false
        inviteCode := none
        createdAt := now
        expiresAt := now + challengeTtlSecs })
    return (rcr, nonce)

/-- The challenge of a login is taken as a targeted one first, then as a discoverable one. -/
def takeLoginChallenge (nonce : Uuid) (now : Int) : Ceremony Challenge := do
  match ← Prog.issue (.takeChallenge nonce .authentication now) with
  | some challenge => return challenge
  | none =>
    Prog.ofOption .invalidChallenge
      (← Prog.issue (.takeChallenge nonce .discoverableAuthentication now))

def finishDiscoverable (rp : PasskeyRp) (origin : String) (challenge : Challenge)
    (authCredential : String) (now : Int) : Ceremony Uuid := do
  let stored ← Prog.ofOption .authenticationFailed
    (← Prog.issue (.getCredential (rp.credentialIdOf authCredential)))
  let passkeys ← storedPasskeys rp stored.identityId
  let discState ← orCeremony (prefixed "failed to deserialize challenge: "
    (rp.decodeDiscoverableState challenge.challengeJson))
  let credId ← orCeremony
    (rp.finishDiscoverableAuthentication origin authCredential discState passkeys)
  Prog.issue (.touchLastUsed credId now)
  return stored.identityId

def finishTargeted (rp : PasskeyRp) (origin : String) (challenge : Challenge)
    (authCredential : String) (now : Int) : Ceremony Uuid := do
  let identityId ← Prog.ofOption (.ceremony "challenge missing identity_id")
    challenge.identityId
  let authState ← orCeremony (prefixed "failed to deserialize challenge: "
    (rp.decodeAuthenticationState challenge.challengeJson))
  let credId ← orCeremony (rp.finishAuthentication origin authCredential authState)
  Prog.issue (.touchLastUsed credId now)
  return identityId

def loginFinish (rp : PasskeyRp) (origin : String) (nonce : Uuid) (credential : String)
    (nodeId : Option String) (now : Int) : Ceremony Uuid := do
  let challenge ← takeLoginChallenge nonce now
  let authCredential ← orInvalid (rp.decodeAuthenticationCredential credential)
  let identityId ← if challenge.kind = .discoverableAuthentication then
      finishDiscoverable rp origin challenge authCredential now
    else finishTargeted rp origin challenge authCredential now
  if let some nodeId := nodeId then
    linkNode identityId nodeId now
  return identityId

/-! The footprints of the ceremonies. -/

section Footprint

variable {effects : Set Cmd.Effect}

variable {allowed : {β : Type} → Cmd β → Prop}

@[simp] theorem orCeremony_within {α : Type}
    (value : Except String α) : (orCeremony value).Within allowed := Prog.within_ofExcept _

@[simp] theorem orInvalid_within {α : Type}
    (value : Except String α) : (orInvalid value).Within allowed := Prog.within_ofExcept _

@[simp] theorem storedPasskeys_uses (rp : PasskeyRp) (identityId : Uuid)
    (has : .read ∈ effects) : (storedPasskeys rp identityId).Within (Cmd.Uses effects) := by
  simp [storedPasskeys, Cmd.effect, has]

@[simp] theorem linkNode_uses (identityId : Uuid) (nodeId : String) (now : Int)
    (has : {.read, .addDevice nodeId} ⊆ effects) :
    (linkNode identityId nodeId now).Within (Cmd.Uses effects) := by
  simp [linkNode, addDevice_uses ⟨identityId, nodeId, none, now, now, none⟩ has]

@[simp] theorem registerStart_uses (rp : PasskeyRp) (origin : String) (args : RegisterStartArgs)
    (has : {.read, .saveChallenge} ⊆ effects) :
    (registerStart rp origin args).Within (Cmd.Uses effects) := by
  simp only [Set.insert_subset_iff, Set.singleton_subset_iff] at has
  simp [registerStart, Cmd.effect, has]

@[simp] theorem registerFinish_uses (rp : PasskeyRp) (origin : String) (nonce : Uuid)
    (credential : String) (nodeId : Option String) (now : Int)
    (has : {.read, .takeChallenge, .addCredential} ⊆ effects)
    (link : ∀ node ∈ nodeId, .addDevice node ∈ effects) :
    (registerFinish rp origin nonce credential nodeId now).Within (Cmd.Uses effects) := by
  simp only [Set.insert_subset_iff, Set.singleton_subset_iff] at has
  cases nodeId <;> simp_all [registerFinish, Cmd.effect, Set.insert_subset_iff]

@[simp] theorem loginStart_uses (rp : PasskeyRp) (origin : String)
    (identity : Option (Uuid × String)) (now : Int) (challengeTtlSecs : Int)
    (has : {.read, .saveChallenge} ⊆ effects) :
    (loginStart rp origin identity now challengeTtlSecs).Within (Cmd.Uses effects) := by
  simp only [Set.insert_subset_iff, Set.singleton_subset_iff] at has
  cases identity <;> simp [loginStart, Cmd.effect, has]

@[simp] theorem takeLoginChallenge_uses (nonce : Uuid) (now : Int)
    (has : .takeChallenge ∈ effects) :
    (takeLoginChallenge nonce now).Within (Cmd.Uses effects) := by
  simp only [takeLoginChallenge, Prog.within_bind, Prog.within_issue, Cmd.uses_iff, Cmd.effect]
  refine ⟨has, fun challenge _ => ?_⟩
  cases challenge <;> simp [Cmd.effect, has]

@[simp] theorem finishDiscoverable_uses (rp : PasskeyRp) (origin : String) (challenge : Challenge)
    (authCredential : String) (now : Int) (has : {.read, .touchLastUsed} ⊆ effects) :
    (finishDiscoverable rp origin challenge authCredential now).Within (Cmd.Uses effects) := by
  simp only [Set.insert_subset_iff, Set.singleton_subset_iff] at has
  simp [finishDiscoverable, Cmd.effect, has]

@[simp] theorem finishTargeted_uses (rp : PasskeyRp) (origin : String) (challenge : Challenge)
    (authCredential : String) (now : Int) (has : .touchLastUsed ∈ effects) :
    (finishTargeted rp origin challenge authCredential now).Within (Cmd.Uses effects) := by
  simp [finishTargeted, Cmd.effect, has]

@[simp] theorem loginFinish_uses (rp : PasskeyRp) (origin : String) (nonce : Uuid)
    (credential : String) (nodeId : Option String) (now : Int)
    (has : {.read, .takeChallenge, .touchLastUsed} ⊆ effects)
    (link : ∀ node ∈ nodeId, .addDevice node ∈ effects) :
    (loginFinish rp origin nonce credential nodeId now).Within (Cmd.Uses effects) := by
  simp only [Set.insert_subset_iff, Set.singleton_subset_iff] at has
  cases nodeId <;> simp_all [loginFinish, Set.insert_subset_iff]

end Footprint

end Tomb.Haruspex.Webauthn
