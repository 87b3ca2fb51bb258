import Tomb.Haruspex.Basic

/-! The friend protocol's message set. `J` is the type of raw json values, which haruspex
carries along and never inspects. -/
namespace Tomb.Haruspex.Protocol

inductive BrowseCapability where
  | «public»
  | knock

structure Capabilities where
  browse : BrowseCapability

inductive WireKnockScope where
  | account (requestedUsername : Option String)
  | browse
  | resource (resourceId : String) (requestedRole : Option Role)

structure GossipDigestPendingKnock where
  (knockId nodeId : String)
  username : Option String
  message : String
  scope : WireKnockScope
  knockedAt : String

structure GossipDigestProfileEntry where
  (peerNodeId profileDocId updatedAt : String)

inductive CoreMessage (J : Type) where
  | profileRequest (v : UInt8)
  | profileResponse (v : UInt8) (username bio avatarDataUrl : String) (accentColor : Option Int64)
      (profileDocId profileUpdatedAt : Option String) (isHub : Option Bool)
  | friendRequest (v : UInt8) (fromNodeId fromUsername : String)
      (bio avatarDataUrl : Option String) (accentColor : Option Int64) (isHub : Option Bool)
  | friendAccept (v : UInt8) (fromNodeId fromUsername : String)
      (bio avatarDataUrl : Option String) (accentColor : Option Int64) (isHub : Option Bool)
  | friendAcceptAck (v : UInt8) (fromNodeId : String)
  | friendReject (v : UInt8) (fromNodeId : String)
  | heartbeat (v : UInt8) (nodeId username : String) (appPayload : Option J)
  | offlineAnnouncement (v : UInt8) (nodeId : String)
  | hello (v : UInt8) (nodeId : String) (username avatarBlobId : Option String)
      (capabilities : Capabilities)
  | helloOk (v : UInt8) (nodeId : String) (username avatarBlobId : Option String)
      (capabilities : Capabilities)
  | knockRequest (v : UInt8) (knockId nodeId : String) (username : Option String)
      (message : String) (scope : WireKnockScope)
  | knockAck (v : UInt8) (knockId ackerNodeId : String) (resourceId : Option String)
  | knockOutcome (v : UInt8) (knockId : Option String) (status : KnockStatus)
      (grantedRole : Option Role) (grantedResourceIds : List String) (byNodeId : Option String)
  | identityUpdate (v : UInt8) (nodeId : String) (username avatarDataUrl bio : Option String)
      (accentColor : Option Int64)
  | aclChange (v : UInt8) (resourceId : String) (resourceTitle : Option String)
      (targetNodeId : String) (newRole : Option Role) (changedBy changedByUsername : String)
  | gossipDigest (v : UInt8) (pendingKnocks : List GossipDigestPendingKnock)
      (profiles : List GossipDigestProfileEntry) (appPayload : Option J)
  | blobSeek (v : UInt8) (needed : List String)
  | blobOffer (v : UInt8) (available : List String)
  | error (v : UInt8) (code message : String)

inductive FriendzMessage (J : Type) where
  | core (message : CoreMessage J)
  | appExtension (messageType : String) (payload : J)

def heartbeatTimeoutMs : Nat := 90000

end Tomb.Haruspex.Protocol
