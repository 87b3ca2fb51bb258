import Tomb.Haruspex.Rows

/-! Grimoire's user models: roles, accounts, invite codes in grimoire's own shape, requests,
errors and responses. Times are unix seconds. -/
namespace Tomb.Grimoire

open Haruspex (InviteCodeType Uuid StoreError)

inductive UserRole where
  | root
  | admin
  | member
  | viewer
  deriving DecidableEq

namespace UserRole

def level : UserRole → Nat
  | root => 0
  | admin => 10
  | member => 20
  | viewer => 30

def isAdmin (role : UserRole) : Bool := decide (role.level ≤ admin.level)

def toHaruspexRole : UserRole → Haruspex.Role
  | root => .root
  | admin => .admin
  | member => .member
  | viewer => .viewer

def fromHaruspexRole : Haruspex.Role → UserRole
  | .root => root
  | .admin => admin
  | .member => member
  | .viewer => viewer

end UserRole

structure User where
  id : Nat
  username : String
  role : UserRole
  apiKey : Option String
  (createdAt updatedAt : Int)
  deletedAt : Option Int
  haruspexUserId : Option String
  deriving DecidableEq

namespace User

def isAdmin (user : User) : Bool := user.role.isAdmin

end User

structure UserPeerNode where
  userId : Nat
  nodeId : String
  instanceName : Option String
  createdAt : Int
  (lastSeenAt deletedAt : Option Int)

/-- An invite code as grimoire shows it: the identities that used it or that it links to are
resolved to grimoire users. -/
structure InviteCode where
  id : Uuid
  code : String
  createdAt : Int
  usedAt : Option Int
  usedById : Option Nat
  isActive : Bool
  codeType : InviteCodeType
  linkForUserId : Option Nat
  linkExpiresAt : Option Int
  grantsRole : UserRole
  (maxUses useCount : Int)

namespace InviteCode

def isAccountLinkCode (invite : InviteCode) : Bool := decide (invite.codeType = .accountLink)

def isExpired (invite : InviteCode) (now : Int) : Bool :=
  invite.linkExpiresAt.any fun expiresAt => decide (expiresAt < now)

def isValidForUse (invite : InviteCode) (now : Int) : Bool :=
  invite.isActive && !invite.isExpired now &&
    (decide (invite.maxUses ≤ 0) || decide (invite.useCount < invite.maxUses))

def targetUserId (invite : InviteCode) : Option Nat :=
  if invite.isAccountLinkCode then invite.linkForUserId else none

end InviteCode

structure CreateUserRequest where
  username : String
  role : Option UserRole
  inviteCode : Option String

structure UpdateUserRequest where
  role : Option UserRole

structure CreateInviteCodeRequest where
  codeType : Option InviteCodeType
  (linkForUserId expiresHours : Option Nat)
  grantsRole : Option UserRole
  maxUses : Option Int

structure WhoAmIResponse where
  userId : Nat
  username : String
  role : UserRole

inductive AuthError where
  | userNotFound
  | userNotFoundByUsername (username : String)
  | userAlreadyExists (username : String)
  | invalidInviteCode
  | inviteCodeNotFound (code : String)
  | inviteCodeAlreadyUsed
  | inviteCodeExpired
  | insufficientPermissions
  | invalidApiKey
  | invalidUsername (reason : String)
  | database (message : String)
  deriving DecidableEq

structure ErrorDetail where
  (errorType title detail : String)
  deriving DecidableEq

def storeErrorText : StoreError → String
  | .notFound => "not found"
  | .conflict message => "conflict: " ++ message
  | .database constraint => "database error: " ++ constraint

namespace AuthError

def ofStore (error : StoreError) : AuthError := .database (storeErrorText error)

def text : AuthError → String
  | userNotFound => "User not found"
  | userNotFoundByUsername username => "User not found: " ++ username
  | userAlreadyExists username => "User already exists: " ++ username
  | invalidInviteCode => "Invalid invite code"
  | inviteCodeNotFound code => "Invite code not found: " ++ code
  | inviteCodeAlreadyUsed => "Invite code already used"
  | inviteCodeExpired => "Invite code has expired"
  | insufficientPermissions => "Insufficient permissions"
  | invalidApiKey => "Invalid API key"
  | invalidUsername reason => "Invalid username: " ++ reason
  | database message => "Database error: " ++ message

def errorType : AuthError → String
  | userNotFound => "user_not_found"
  | userNotFoundByUsername _ => "user_not_found"
  | userAlreadyExists _ => "user_already_exists"
  | invalidInviteCode => "invalid_invite_code"
  | inviteCodeNotFound _ => "invite_code_not_found"
  | inviteCodeAlreadyUsed => "invite_code_already_used"
  | inviteCodeExpired => "invite_code_expired"
  | insufficientPermissions => "insufficient_permissions"
  | invalidApiKey => "invalid_api_key"
  | invalidUsername _ => "invalid_username"
  | database _ => "database_error"

def toErrorDetail (error : AuthError) : ErrorDetail where
  errorType := error.errorType
  title := " ".intercalate ((error.errorType.splitOn "_").map String.capitalize)
  detail := error.text

end AuthError

structure Failure where
  message : String
  errors : List ErrorDetail
  deriving DecidableEq

structure Reply (α : Type) where
  message : String
  data : α
  deriving DecidableEq

def failed (message : String) (error : AuthError) : Failure := ⟨message, [error.toErrorDetail]⟩

end Tomb.Grimoire
