import Tomb.Lib.Schema

/-! The wire form of the friend protocol's messages in javascript: the schemas and the decoder that
lets extensions through. -/
namespace Tomb.Haruspex.Protocol
open Tomb.Lib

def wireVersion : Schema :=
  (Schema.number fun value => Schema.isSafeInteger value && decide (0 ≤ value)).default (.number 1)

def wireRoleSchema : Schema := .enum ["viewer", "member", "admin", "root"]

def wireKnockStatusSchema : Schema := .enum ["pending", "accepted", "denied"]

def browseCapabilitySchema : Schema := .enum ["public", "knock"]

def capabilitiesShape : Shape := .cons "browse" browseCapabilitySchema .nil

def capabilitiesSchema : Schema := .object capabilitiesShape

def wireKnockScopeOptions : List (String × Shape) :=
  [("account", .cons "kind" (.literal "account") <|
      .cons "requestedUsername" (.optional .string) .nil),
    ("browse", .cons "kind" (.literal "browse") .nil),
    ("resource", .cons "kind" (.literal "resource") <| .cons "resourceId" .string <|
      .cons "requestedRole" (.optional wireRoleSchema) .nil)]

def wireKnockScopeSchema : Schema := .discriminatedUnion "kind" wireKnockScopeOptions

def gossipDigestPendingKnockShape : Shape :=
  .cons "knockId" .string <| .cons "nodeId" .string <| .cons "username" (.optional .string) <|
    .cons "message" .string <| .cons "scope" wireKnockScopeSchema <| .cons "knockedAt" .string .nil

def gossipDigestPendingKnockSchema : Schema := .object gossipDigestPendingKnockShape

def gossipDigestProfileEntryShape : Shape :=
  .cons "peerNodeId" .string <| .cons "profileDocId" .string <| .cons "updatedAt" .string .nil

def gossipDigestProfileEntrySchema : Schema := .object gossipDigestProfileEntryShape

def number : Schema := .number fun _ => true

def arrayOf (schema : Schema) : Schema := schema.array.default (.array [])

def profileRequestSchema : Shape :=
  .cons "type" (.literal "profile-request") <| .cons "v" wireVersion .nil

def profileResponseSchema : Shape :=
  .cons "type" (.literal "profile-response") <| .cons "v" wireVersion <|
    .cons "username" .string <| .cons "bio" .string <| .cons "avatarDataUrl" .string <|
    .cons "accentColor" (.optional number) <| .cons "profileDocId" (.optional .string) <|
    .cons "profileUpdatedAt" (.optional .string) <| .cons "isHub" (.optional .boolean) .nil

def friendRequestSchema : Shape :=
  .cons "type" (.literal "friend-request") <| .cons "v" wireVersion <|
    .cons "fromNodeId" .string <| .cons "fromUsername" .string <|
    .cons "bio" (.optional .string) <| .cons "avatarDataUrl" (.optional .string) <|
    .cons "accentColor" (.optional number) <| .cons "isHub" (.optional .boolean) .nil

def friendAcceptSchema : Shape :=
  .cons "type" (.literal "friend-accept") <| .cons "v" wireVersion <| .cons "fromNodeId" .string <|
    .cons "fromUsername" .string <| .cons "bio" (.optional .string) <|
    .cons "avatarDataUrl" (.optional .string) <| .cons "accentColor" (.optional number) <|
    .cons "isHub" (.optional .boolean) .nil

def friendAcceptAckSchema : Shape :=
  .cons "type" (.literal "friend-accept-ack") <| .cons "v" wireVersion <|
    .cons "fromNodeId" .string .nil

def friendRejectSchema : Shape :=
  .cons "type" (.literal "friend-reject") <| .cons "v" wireVersion <|
    .cons "fromNodeId" .string .nil

def heartbeatSchema : Shape :=
  .cons "type" (.literal "heartbeat") <| .cons "v" wireVersion <| .cons "nodeId" .string <|
    .cons "username" .string <| .cons "appPayload" (.optional .unknown) .nil

def offlineAnnouncementSchema : Shape :=
  .cons "type" (.literal "offline-announcement") <| .cons "v" wireVersion <|
    .cons "nodeId" .string .nil

def helloSchema : Shape :=
  .cons "type" (.literal "hello") <| .cons "v" wireVersion <| .cons "nodeId" .string <|
    .cons "username" (.optional .string) <| .cons "avatarBlobId" (.optional .string) <|
    .cons "capabilities" capabilitiesSchema .nil

def helloOkSchema : Shape :=
  .cons "type" (.literal "hello-ok") <| .cons "v" wireVersion <| .cons "nodeId" .string <|
    .cons "username" (.optional .string) <| .cons "avatarBlobId" (.optional .string) <|
    .cons "capabilities" capabilitiesSchema .nil

def knockRequestSchema : Shape :=
  .cons "type" (.literal "knock-request") <| .cons "v" wireVersion <| .cons "knockId" .string <|
    .cons "nodeId" .string <| .cons "username" (.optional .string) <| .cons "message" .string <|
    .cons "scope" wireKnockScopeSchema .nil

def knockAckSchema : Shape :=
  .cons "type" (.literal "knock-ack") <| .cons "v" wireVersion <| .cons "knockId" .string <|
    .cons "ackerNodeId" .string <| .cons "resourceId" (.optional .string) .nil

def knockOutcomeSchema : Shape :=
  .cons "type" (.literal "knock-outcome") <| .cons "v" wireVersion <|
    .cons "knockId" (.optional .string) <| .cons "status" wireKnockStatusSchema <|
    .cons "grantedRole" (.optional wireRoleSchema) <|
    .cons "grantedResourceIds" (arrayOf .string) <| .cons "byNodeId" (.optional .string) .nil

def identityUpdateSchema : Shape :=
  .cons "type" (.literal "identity-update") <| .cons "v" wireVersion <| .cons "nodeId" .string <|
    .cons "username" (.optional .string) <| .cons "avatarDataUrl" (.optional .string) <|
    .cons "bio" (.optional .string) <| .cons "accentColor" (.optional number) .nil

def aclChangeSchema : Shape :=
  .cons "type" (.literal "acl-change") <| .cons "v" wireVersion <| .cons "resourceId" .string <|
    .cons "resourceTitle" (.optional .string) <| .cons "targetNodeId" .string <|
    .cons "newRole" (.optional wireRoleSchema) <| .cons "changedBy" .string <|
    .cons "changedByUsername" .string .nil

def gossipDigestSchema : Shape :=
  .cons "type" (.literal "gossip-digest") <| .cons "v" wireVersion <|
    .cons "pendingKnocks" (arrayOf gossipDigestPendingKnockSchema) <|
    .cons "profiles" (arrayOf gossipDigestProfileEntrySchema) <|
    .cons "appPayload" (.optional .unknown) .nil

def blobSeekSchema : Shape :=
  .cons "type" (.literal "blob-seek") <| .cons "v" wireVersion <|
    .cons "needed" (arrayOf .string) .nil

def blobOfferSchema : Shape :=
  .cons "type" (.literal "blob-offer") <| .cons "v" wireVersion <|
    .cons "available" (arrayOf .string) .nil

def errorMessageSchema : Shape :=
  .cons "type" (.literal "error") <| .cons "v" wireVersion <| .cons "code" .string <|
    .cons "message" .string .nil

def coreMessageOptions : List (String × Shape) :=
  [("profile-request", profileRequestSchema), ("profile-response", profileResponseSchema),
    ("friend-request", friendRequestSchema), ("friend-accept", friendAcceptSchema),
    ("friend-accept-ack", friendAcceptAckSchema), ("friend-reject", friendRejectSchema),
    ("heartbeat", heartbeatSchema), ("offline-announcement", offlineAnnouncementSchema),
    ("hello", helloSchema), ("hello-ok", helloOkSchema), ("knock-request", knockRequestSchema),
    ("knock-ack", knockAckSchema), ("knock-outcome", knockOutcomeSchema),
    ("identity-update", identityUpdateSchema), ("acl-change", aclChangeSchema),
    ("gossip-digest", gossipDigestSchema), ("blob-seek", blobSeekSchema),
    ("blob-offer", blobOfferSchema), ("error", errorMessageSchema)]

def coreMessageSchema : Schema := .discriminatedUnion "type" coreMessageOptions

def coreMessageTypes : List String :=
  ["profile-request", "profile-response", "friend-request", "friend-accept", "friend-accept-ack",
    "friend-reject", "heartbeat", "offline-announcement", "hello", "hello-ok", "knock-request",
    "knock-ack", "knock-outcome", "identity-update", "acl-change", "gossip-digest", "blob-seek",
    "blob-offer", "error"]

def isCoreMessageType (type : String) : Bool := coreMessageTypes.contains type

@[grind =] def isAppExtensionType (type : String) : Bool := type.toList.contains ':'

/-- A decoded message: what the schema made of a core message, or an extension as it came. -/
inductive DecodedMessage where
  | core (message : Json ℚ)
  | appExtension (messageType : String) (payload : Json ℚ)

inductive DecodeError where
  | message (text : String)
  | schema

def decodeCoreMessage (raw : Json ℚ) : Except DecodeError DecodedMessage :=
  match coreMessageSchema.parse (some raw) with
  | some (some message) => .ok (.core message)
  | _ => .error .schema

@[grind =] def decodeFriendzMessage (raw : Json ℚ) : Except DecodeError DecodedMessage :=
  match raw with
  | .object obj =>
    match lookup obj "type" with
    | some (.string type) =>
      if type = "" then .error (.message "friendz message is missing a string 'type' field")
      else if isAppExtensionType type then .ok (.appExtension type raw)
      else if isCoreMessageType type then decodeCoreMessage raw
      else .error (.message s!"unknown friendz message type \"{type}\"")
    | _ => .error (.message "friendz message is missing a string 'type' field")
  | _ => .error (.message "friendz message must be a json object")

end Tomb.Haruspex.Protocol
