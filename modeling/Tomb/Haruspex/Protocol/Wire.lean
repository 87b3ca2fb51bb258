import Tomb.Haruspex.Protocol.Messages
import Tomb.Lib.Record

/-! The wire form of the friend protocol's messages in rust: for every type its fields, as serde
derives their reading and writing, and the hand-written reader that lets extensions through. -/
namespace Tomb.Haruspex

def Role.asStr : Role → String
  | viewer => "viewer"
  | member => "member"
  | admin => "admin"
  | root => "root"

def Role.parse : String → Option Role
  | "viewer" => some viewer
  | "member" => some member
  | "admin" => some admin
  | "root" => some root
  | _ => none

def KnockStatus.asStr : KnockStatus → String
  | pending => "pending"
  | accepted => "accepted"
  | denied => "denied"

def KnockStatus.parse : String → Option KnockStatus
  | "pending" => some pending
  | "accepted" => some accepted
  | "denied" => some denied
  | _ => none

namespace Protocol
open Tomb.Lib

def BrowseCapability.asStr : BrowseCapability → String
  | «public» => "public"
  | knock => "knock"

def BrowseCapability.parse : String → Option BrowseCapability
  | "public" => some «public»
  | "knock" => some knock
  | _ => none

def role : Codec Role := .unitEnum Role.asStr Role.parse

def knockStatus : Codec KnockStatus := .unitEnum KnockStatus.asStr KnockStatus.parse

def browseCapability : Codec BrowseCapability :=
  .unitEnum BrowseCapability.asStr BrowseCapability.parse

def version : Codec UInt8 := .defaulted 1 .u8

def capabilitiesFields : Fields (BrowseCapability × Unit) := .cons "browse" browseCapability .nil

def capabilities : Codec Capabilities :=
  (Codec.record capabilitiesFields).iso (fun p => ⟨p.1⟩) fun value => (value.browse, ())

namespace WireKnockScope

def accountVariant : Variant WireKnockScope where
  name := "account"
  Payload := Option String × Unit
  fields := .cons "requestedUsername" (.optional .string) .nil
  make p := .account p.1
  make_injective a b same := by injection same; exact Prod.ext ‹_› rfl

def browseVariant : Variant WireKnockScope where
  name := "browse"
  Payload := Unit
  fields := .nil
  make _ := .browse
  make_injective _ _ _ := rfl

def resourceVariant : Variant WireKnockScope where
  name := "resource"
  Payload := String × Option Role × Unit
  fields := .cons "resourceId" .string (.cons "requestedRole" (.optional role) .nil)
  make p := .resource p.1 p.2.1
  make_injective a b same := by injection same; exact Prod.ext ‹_› (Prod.ext ‹_› rfl)

def variants : List (Variant WireKnockScope) := [accountVariant, browseVariant, resourceVariant]

def entry : WireKnockScope → String × List (String × Option (Json Number))
  | .account requestedUsername => accountVariant.written (requestedUsername, ())
  | .browse => browseVariant.written ()
  | .resource resourceId requestedRole => resourceVariant.written (resourceId, requestedRole, ())

def codec : Codec WireKnockScope := .tagged "kind" variants entry

end WireKnockScope

def pendingKnockFields :
    Fields (String × String × Option String × String × WireKnockScope × String × Unit) :=
  .cons "knockId" .string <| .cons "nodeId" .string <| .cons "username" (.optional .string) <|
    .cons "message" .string <| .cons "scope" WireKnockScope.codec <| .cons "knockedAt" .string .nil

def pendingKnock : Codec GossipDigestPendingKnock :=
  (Codec.record pendingKnockFields).iso
    (fun p => ⟨p.1, p.2.1, p.2.2.1, p.2.2.2.1, p.2.2.2.2.1, p.2.2.2.2.2.1⟩)
    fun value => (value.knockId, value.nodeId, value.username, value.message, value.scope,
      value.knockedAt, ())

def profileEntryFields : Fields (String × String × String × Unit) :=
  .cons "peerNodeId" .string <| .cons "profileDocId" .string <| .cons "updatedAt" .string .nil

def profileEntry : Codec GossipDigestProfileEntry :=
  (Codec.record profileEntryFields).iso (fun p => ⟨p.1, p.2.1, p.2.2.1⟩)
    fun value => (value.peerNodeId, value.profileDocId, value.updatedAt, ())

namespace CoreMessage

def profileRequestVariant : Variant (CoreMessage (Json Number)) where
  name := "profile-request"
  Payload := _
  fields := .cons "v" version .nil
  make p := .profileRequest p.1
  make_injective a b same := by injection same; simp_all [Prod.ext_iff]

def profileResponseVariant : Variant (CoreMessage (Json Number)) where
  name := "profile-response"
  Payload := _
  fields := .cons "v" version <| .cons "username" .string <| .cons "bio" .string <|
    .cons "avatarDataUrl" .string <| .cons "accentColor" (.optional .i64) <|
    .cons "profileDocId" (.optional .string) <| .cons "profileUpdatedAt" (.optional .string) <|
    .cons "isHub" (.optional .bool) .nil
  make p := .profileResponse p.1 p.2.1 p.2.2.1 p.2.2.2.1 p.2.2.2.2.1 p.2.2.2.2.2.1 p.2.2.2.2.2.2.1
    p.2.2.2.2.2.2.2.1
  make_injective a b same := by injection same; simp_all [Prod.ext_iff]

def friendRequestVariant : Variant (CoreMessage (Json Number)) where
  name := "friend-request"
  Payload := _
  fields := .cons "v" version <| .cons "fromNodeId" .string <| .cons "fromUsername" .string <|
    .cons "bio" (.optional .string) <| .cons "avatarDataUrl" (.optional .string) <|
    .cons "accentColor" (.optional .i64) <| .cons "isHub" (.optional .bool) .nil
  make p := .friendRequest p.1 p.2.1 p.2.2.1 p.2.2.2.1 p.2.2.2.2.1 p.2.2.2.2.2.1 p.2.2.2.2.2.2.1
  make_injective a b same := by injection same; simp_all [Prod.ext_iff]

def friendAcceptVariant : Variant (CoreMessage (Json Number)) where
  name := "friend-accept"
  Payload := _
  fields := .cons "v" version <| .cons "fromNodeId" .string <| .cons "fromUsername" .string <|
    .cons "bio" (.optional .string) <| .cons "avatarDataUrl" (.optional .string) <|
    .cons "accentColor" (.optional .i64) <| .cons "isHub" (.optional .bool) .nil
  make p := .friendAccept p.1 p.2.1 p.2.2.1 p.2.2.2.1 p.2.2.2.2.1 p.2.2.2.2.2.1 p.2.2.2.2.2.2.1
  make_injective a b same := by injection same; simp_all [Prod.ext_iff]

def friendAcceptAckVariant : Variant (CoreMessage (Json Number)) where
  name := "friend-accept-ack"
  Payload := _
  fields := .cons "v" version <| .cons "fromNodeId" .string .nil
  make p := .friendAcceptAck p.1 p.2.1
  make_injective a b same := by injection same; simp_all [Prod.ext_iff]

def friendRejectVariant : Variant (CoreMessage (Json Number)) where
  name := "friend-reject"
  Payload := _
  fields := .cons "v" version <| .cons "fromNodeId" .string .nil
  make p := .friendReject p.1 p.2.1
  make_injective a b same := by injection same; simp_all [Prod.ext_iff]

def heartbeatVariant : Variant (CoreMessage (Json Number)) where
  name := "heartbeat"
  Payload := _
  fields := .cons "v" version <| .cons "nodeId" .string <| .cons "username" .string <|
    .cons "appPayload" (.optional .value) .nil
  make p := .heartbeat p.1 p.2.1 p.2.2.1 p.2.2.2.1
  make_injective a b same := by injection same; simp_all [Prod.ext_iff]

def offlineAnnouncementVariant : Variant (CoreMessage (Json Number)) where
  name := "offline-announcement"
  Payload := _
  fields := .cons "v" version <| .cons "nodeId" .string .nil
  make p := .offlineAnnouncement p.1 p.2.1
  make_injective a b same := by injection same; simp_all [Prod.ext_iff]

def helloVariant : Variant (CoreMessage (Json Number)) where
  name := "hello"
  Payload := _
  fields := .cons "v" version <| .cons "nodeId" .string <| .cons "username" (.optional .string) <|
    .cons "avatarBlobId" (.optional .string) <| .cons "capabilities" capabilities .nil
  make p := .hello p.1 p.2.1 p.2.2.1 p.2.2.2.1 p.2.2.2.2.1
  make_injective a b same := by injection same; simp_all [Prod.ext_iff]

def helloOkVariant : Variant (CoreMessage (Json Number)) where
  name := "hello-ok"
  Payload := _
  fields := .cons "v" version <| .cons "nodeId" .string <| .cons "username" (.optional .string) <|
    .cons "avatarBlobId" (.optional .string) <| .cons "capabilities" capabilities .nil
  make p := .helloOk p.1 p.2.1 p.2.2.1 p.2.2.2.1 p.2.2.2.2.1
  make_injective a b same := by injection same; simp_all [Prod.ext_iff]

def knockRequestVariant : Variant (CoreMessage (Json Number)) where
  name := "knock-request"
  Payload := _
  fields := .cons "v" version <| .cons "knockId" .string <| .cons "nodeId" .string <|
    .cons "username" (.optional .string) <| .cons "message" .string <|
    .cons "scope" WireKnockScope.codec .nil
  make p := .knockRequest p.1 p.2.1 p.2.2.1 p.2.2.2.1 p.2.2.2.2.1 p.2.2.2.2.2.1
  make_injective a b same := by injection same; simp_all [Prod.ext_iff]

def knockAckVariant : Variant (CoreMessage (Json Number)) where
  name := "knock-ack"
  Payload := _
  fields := .cons "v" version <| .cons "knockId" .string <| .cons "ackerNodeId" .string <|
    .cons "resourceId" (.optional .string) .nil
  make p := .knockAck p.1 p.2.1 p.2.2.1 p.2.2.2.1
  make_injective a b same := by injection same; simp_all [Prod.ext_iff]

def knockOutcomeVariant : Variant (CoreMessage (Json Number)) where
  name := "knock-outcome"
  Payload := _
  fields := .cons "v" version <| .cons "knockId" (.optional .string) <|
    .cons "status" knockStatus <| .cons "grantedRole" (.optional role) <|
    .cons "grantedResourceIds" (.vec .string) <| .cons "byNodeId" (.optional .string) .nil
  make p := .knockOutcome p.1 p.2.1 p.2.2.1 p.2.2.2.1 p.2.2.2.2.1 p.2.2.2.2.2.1
  make_injective a b same := by injection same; simp_all [Prod.ext_iff]

def identityUpdateVariant : Variant (CoreMessage (Json Number)) where
  name := "identity-update"
  Payload := _
  fields := .cons "v" version <| .cons "nodeId" .string <| .cons "username" (.optional .string) <|
    .cons "avatarDataUrl" (.optional .string) <| .cons "bio" (.optional .string) <|
    .cons "accentColor" (.optional .i64) .nil
  make p := .identityUpdate p.1 p.2.1 p.2.2.1 p.2.2.2.1 p.2.2.2.2.1 p.2.2.2.2.2.1
  make_injective a b same := by injection same; simp_all [Prod.ext_iff]

def aclChangeVariant : Variant (CoreMessage (Json Number)) where
  name := "acl-change"
  Payload := _
  fields := .cons "v" version <| .cons "resourceId" .string <|
    .cons "resourceTitle" (.optional .string) <| .cons "targetNodeId" .string <|
    .cons "newRole" (.optional role) <| .cons "changedBy" .string <|
    .cons "changedByUsername" .string .nil
  make p := .aclChange p.1 p.2.1 p.2.2.1 p.2.2.2.1 p.2.2.2.2.1 p.2.2.2.2.2.1 p.2.2.2.2.2.2.1
  make_injective a b same := by injection same; simp_all [Prod.ext_iff]

def gossipDigestVariant : Variant (CoreMessage (Json Number)) where
  name := "gossip-digest"
  Payload := _
  fields := .cons "v" version <| .cons "pendingKnocks" (.vec pendingKnock) <|
    .cons "profiles" (.vec profileEntry) <| .cons "appPayload" (.optional .value) .nil
  make p := .gossipDigest p.1 p.2.1 p.2.2.1 p.2.2.2.1
  make_injective a b same := by injection same; simp_all [Prod.ext_iff]

def blobSeekVariant : Variant (CoreMessage (Json Number)) where
  name := "blob-seek"
  Payload := _
  fields := .cons "v" version <| .cons "needed" (.vec .string) .nil
  make p := .blobSeek p.1 p.2.1
  make_injective a b same := by injection same; simp_all [Prod.ext_iff]

def blobOfferVariant : Variant (CoreMessage (Json Number)) where
  name := "blob-offer"
  Payload := _
  fields := .cons "v" version <| .cons "available" (.vec .string) .nil
  make p := .blobOffer p.1 p.2.1
  make_injective a b same := by injection same; simp_all [Prod.ext_iff]

def errorVariant : Variant (CoreMessage (Json Number)) where
  name := "error"
  Payload := _
  fields := .cons "v" version <| .cons "code" .string <| .cons "message" .string .nil
  make p := .error p.1 p.2.1 p.2.2.1
  make_injective a b same := by injection same; simp_all [Prod.ext_iff]

def variants : List (Variant (CoreMessage (Json Number))) :=
  [profileRequestVariant, profileResponseVariant, friendRequestVariant, friendAcceptVariant,
    friendAcceptAckVariant, friendRejectVariant, heartbeatVariant, offlineAnnouncementVariant,
    helloVariant, helloOkVariant, knockRequestVariant, knockAckVariant, knockOutcomeVariant,
    identityUpdateVariant, aclChangeVariant, gossipDigestVariant, blobSeekVariant,
    blobOfferVariant, errorVariant]

theorem variants_distinct : (variants.map Variant.name).Nodup := by decide

theorem variants_fresh : ∀ variant ∈ variants, "type" ∉ variant.fields.names ∧
    variant.fields.names.Nodup ∧ ':' ∉ variant.name.toList := by decide

def entry : CoreMessage (Json Number) → String × List (String × Option (Json Number))
  | .profileRequest v => profileRequestVariant.written (v, ())
  | .profileResponse v username bio avatarDataUrl accentColor profileDocId profileUpdatedAt isHub =>
    profileResponseVariant.written
      (v, username, bio, avatarDataUrl, accentColor, profileDocId, profileUpdatedAt, isHub, ())
  | .friendRequest v fromNodeId fromUsername bio avatarDataUrl accentColor isHub =>
    friendRequestVariant.written
      (v, fromNodeId, fromUsername, bio, avatarDataUrl, accentColor, isHub, ())
  | .friendAccept v fromNodeId fromUsername bio avatarDataUrl accentColor isHub =>
    friendAcceptVariant.written
      (v, fromNodeId, fromUsername, bio, avatarDataUrl, accentColor, isHub, ())
  | .friendAcceptAck v fromNodeId => friendAcceptAckVariant.written (v, fromNodeId, ())
  | .friendReject v fromNodeId => friendRejectVariant.written (v, fromNodeId, ())
  | .heartbeat v nodeId username appPayload =>
    heartbeatVariant.written (v, nodeId, username, appPayload, ())
  | .offlineAnnouncement v nodeId => offlineAnnouncementVariant.written (v, nodeId, ())
  | .hello v nodeId username avatarBlobId capabilities =>
    helloVariant.written (v, nodeId, username, avatarBlobId, capabilities, ())
  | .helloOk v nodeId username avatarBlobId capabilities =>
    helloOkVariant.written (v, nodeId, username, avatarBlobId, capabilities, ())
  | .knockRequest v knockId nodeId username message scope =>
    knockRequestVariant.written (v, knockId, nodeId, username, message, scope, ())
  | .knockAck v knockId ackerNodeId resourceId =>
    knockAckVariant.written (v, knockId, ackerNodeId, resourceId, ())
  | .knockOutcome v knockId status grantedRole grantedResourceIds byNodeId =>
    knockOutcomeVariant.written (v, knockId, status, grantedRole, grantedResourceIds, byNodeId, ())
  | .identityUpdate v nodeId username avatarDataUrl bio accentColor =>
    identityUpdateVariant.written (v, nodeId, username, avatarDataUrl, bio, accentColor, ())
  | .aclChange v resourceId resourceTitle targetNodeId newRole changedBy changedByUsername =>
    aclChangeVariant.written
      (v, resourceId, resourceTitle, targetNodeId, newRole, changedBy, changedByUsername, ())
  | .gossipDigest v pendingKnocks profiles appPayload =>
    gossipDigestVariant.written (v, pendingKnocks, profiles, appPayload, ())
  | .blobSeek v needed => blobSeekVariant.written (v, needed, ())
  | .blobOffer v available => blobOfferVariant.written (v, available, ())
  | .error v code message => errorVariant.written (v, code, message, ())

end CoreMessage

namespace FriendzMessage

/-- A core message is written with its type as the tag, an extension as its payload. -/
def serialize : FriendzMessage (Json Number) → Json Number
  | .core message => .object (("type", .string (CoreMessage.entry message).1) ::
      present (CoreMessage.entry message).2)
  | .appExtension _ payload => payload

@[grind =] def deserialize (value : Json Number) : Option (FriendzMessage (Json Number)) :=
  match value with
  | .object entries =>
    match lookup entries "type" with
    | some (.string typeStr) =>
      if ':' ∈ typeStr.toList then some (.appExtension typeStr value)
      else
        ((Variant.named CoreMessage.variants typeStr).bind fun variant =>
          variant.decode (lookup entries)).map .core
    | _ => none
  | _ => none

end FriendzMessage

end Protocol

end Tomb.Haruspex
