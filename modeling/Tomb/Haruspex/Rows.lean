import Tomb.Haruspex.Basic

/-! The rows of haruspex's sqlite tables. Times are unix seconds, identifiers are `Uuid`s, and json
payloads that the stores carry without reading them are their texts. -/
namespace Tomb.Haruspex

/-- The json bag on an identity; the only field anyone reads is the link to a grimoire user. -/
structure Metadata where
  grimoireUserId : Nat
  deriving DecidableEq

structure Identity where
  id : Uuid
  username : Option String
  createdAt : Int
  metadata : Option Metadata
  deletedAt : Option Int
  deriving DecidableEq

structure DeviceNode where
  identityId : Uuid
  nodeId : String
  instanceName : Option String
  (createdAt lastSeenAt : Int)
  deletedAt : Option Int
  deriving DecidableEq

structure ApiKey where
  identityId : Uuid
  apiKey : String
  issuedAt : Int

abbrev CredentialId := List UInt8

structure Credential where
  (id identityId : Uuid)
  credentialId : CredentialId
  credentialData : String
  name : Option String
  createdAt : Int
  (lastUsedAt deletedAt : Option Int)

inductive ChallengeKind where
  | registration
  | authentication
  | discoverableAuthentication
  deriving DecidableEq

structure SaveChallengeArgs where
  kind : ChallengeKind
  challengeJson : String
  identityId : Option Uuid
  username : Option String
  isAccountLink : Bool
  inviteCode : Option String
  (createdAt expiresAt : Int)

structure ChallengeRow extends SaveChallengeArgs where
  nonce : Uuid

structure Challenge where
  nonce : Uuid
  kind : ChallengeKind
  challengeJson : String
  identityId : Option Uuid
  username : Option String
  isAccountLink : Bool
  inviteCode : Option String

def ChallengeRow.toChallenge (row : ChallengeRow) (expectedKind : ChallengeKind) : Challenge where
  nonce := row.nonce
  kind := expectedKind
  challengeJson := row.challengeJson
  identityId := row.identityId
  username := row.username
  isAccountLink := row.isAccountLink
  inviteCode := row.inviteCode

inductive InviteCodeType where
  | invite
  | accountLink
  deriving DecidableEq

structure InviteCode where
  id : Uuid
  code : String
  codeType : InviteCodeType
  grantsRole : Role
  linkForUserId : Option Uuid
  linkExpiresAt : Option Int
  createdAt : Int
  usedAt : Option Int
  usedBy : Option Uuid
  isActive : Bool
  (maxUses useCount : Int)

namespace InviteCode

def isAccountLink (row : InviteCode) : Bool := decide (row.codeType = .accountLink)

def isExpired (row : InviteCode) (now : Int) : Bool :=
  row.linkExpiresAt.any fun expiresAt => decide (expiresAt < now)

/-- Active, not expired and under the redemption quota; a quota of zero or less is no quota. -/
def isValidForUse (row : InviteCode) (now : Int) : Bool :=
  row.isActive && !row.isExpired now &&
    (decide (row.maxUses ≤ 0) || decide (row.useCount < row.maxUses))

def unused (row : InviteCode) : Bool := row.isActive && decide (row.useCount = 0)

end InviteCode

structure Redemption where
  (id inviteId usedBy : Uuid)
  usedAt : Int

structure KnockDecision where
  byNodeId : String
  outcome : KnockStatus
  grantedRole : Option String
  at_ : Int
  deriving DecidableEq

structure KnockRecord where
  id : Uuid
  nodeId : String
  direction : KnockDirection
  scope : KnockScope
  message : String
  status : KnockStatus
  createdAt : Int
  processedAt : Option Int
  processedBy : Option String
  decisions : List KnockDecision
  metadata : Option String
  deriving DecidableEq

end Tomb.Haruspex
