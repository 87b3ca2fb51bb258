import Mathlib.Data.List.AList
import Tomb.Haruspex.Protocol.Messages

/-! The presence and dispatch engine. Every call takes the reading of the monotonic clock as an
argument; the hash map of last-seen instants is an association list with unique keys, and what
is proved about a sweep does not depend on the order in which it visits the entries. -/
namespace Tomb.Haruspex.Protocol

/-- Nanoseconds on the monotonic clock; a difference of instants saturates at zero. -/
abbrev Instant := Nat

def asMillis (duration : Nat) : Nat := duration / 1000000

def fromMillis (millis : Nat) : Nat := millis * 1000000

theorem fromMillis_le_iff (millis duration : Nat) :
    fromMillis millis ≤ duration ↔ ¬ asMillis duration < millis := by
  rw [fromMillis, asMillis, Nat.not_lt, Nat.le_div_iff_mul_le (by decide)]

structure LocalProfile where
  (username bio avatarDataUrl : String)
  accentColor : Option Int64
  (profileDocId profileUpdatedAt : Option String)
  isHub : Option Bool

inductive FriendzEvent (J : Type) where
  | peerOnline (nodeId username : String)
  | peerOffline (nodeId : String)
  | messageReceived (fromNodeId : String) (message : FriendzMessage J)

inductive FriendzResponse (J : Type) where
  | none
  | message (message : FriendzMessage J)

structure FriendzService (J : Type) where
  (localNodeId localUsername : String)
  localProfile : Option LocalProfile
  localCapabilities : Option Capabilities
  lastSeen : AList (fun _ : String => Instant)
  events : List (FriendzEvent J)

namespace FriendzService

variable {J : Type}

@[grind =] def new (localNodeId localUsername : String) : FriendzService J where
  localNodeId := localNodeId
  localUsername := localUsername
  localProfile := none
  localCapabilities := none
  lastSeen := ∅
  events := []

def setLocalUsername (service : FriendzService J) (username : String) : FriendzService J :=
  { service with localUsername := username }

def setLocalProfile (service : FriendzService J) (profile : LocalProfile) : FriendzService J :=
  { service with localProfile := some profile }

def setLocalCapabilities (service : FriendzService J) (capabilities : Capabilities) :
    FriendzService J :=
  { service with localCapabilities := some capabilities }

@[grind =] def send (service : FriendzService J) (event : FriendzEvent J) : FriendzService J :=
  { service with events := service.events ++ [event] }

def isOnline (service : FriendzService J) (now : Instant) (nodeId : String) : Bool :=
  ((service.lastSeen.lookup nodeId).map
    fun t => decide (asMillis (now - t) < heartbeatTimeoutMs)).getD false

def onlinePeers (service : FriendzService J) (now : Instant) : List String :=
  (service.lastSeen.entries.filter
    fun entry => decide (asMillis (now - entry.2) < heartbeatTimeoutMs)).map Sigma.fst

def timedOut (service : FriendzService J) (now : Instant) : List String :=
  (service.lastSeen.entries.filter
    fun entry => decide (fromMillis heartbeatTimeoutMs ≤ now - entry.2)).map Sigma.fst

@[grind =] def goOffline (service : FriendzService J) (nodeId : String) : FriendzService J :=
  { service with lastSeen := service.lastSeen.erase nodeId }.send (.peerOffline nodeId)

def sweepTimeouts (service : FriendzService J) (now : Instant) :
    List String × FriendzService J :=
  (service.timedOut now, (service.timedOut now).foldl goOffline service)

def buildHeartbeat (service : FriendzService J) : FriendzMessage J :=
  .core (.heartbeat 1 service.localNodeId service.localUsername none)

def markOnlineIfNew (service : FriendzService J) (now : Instant) (nodeId username : String) :
    Bool × FriendzService J :=
  let wasOnline := service.isOnline now nodeId
  let service := { service with lastSeen := service.lastSeen.insert nodeId now }
  if !wasOnline then (wasOnline, service.send (.peerOnline nodeId username))
  else (wasOnline, service)

def handleProfileRequest (service : FriendzService J) : FriendzResponse J :=
  match service.localProfile with
  | some p => .message (.core (.profileResponse 1 p.username p.bio p.avatarDataUrl p.accentColor
      p.profileDocId p.profileUpdatedAt p.isHub))
  | none => .none

def handleHello (service : FriendzService J) (now : Instant) (caller : Caller) :
    FriendzResponse J × FriendzService J :=
  let service := (service.markOnlineIfNew now caller.nodeId "").2
  match service.localCapabilities with
  | some capabilities => (.message (.core (.helloOk 1 service.localNodeId
      (some service.localUsername) none capabilities)), service)
  | none => (.none, service)

def handleHeartbeat (service : FriendzService J) (now : Instant) (caller : Caller) :
    FriendzResponse J × FriendzService J :=
  let (wasOnline, service) := service.markOnlineIfNew now caller.nodeId ""
  if wasOnline then (.none, service) else (.message service.buildHeartbeat, service)

def handleOfflineAnnouncement (service : FriendzService J) (caller : Caller) :
    FriendzResponse J × FriendzService J :=
  if (service.lastSeen.lookup caller.nodeId).isSome then (.none, service.goOffline caller.nodeId)
  else (.none, service)

/-- Presence is keyed by the caller that the transport verified, never by a node id that a
message carries. -/
def dispatch (service : FriendzService J) (now : Instant) (caller : Caller)
    (message : FriendzMessage J) : FriendzResponse J × FriendzService J :=
  let (response, service) := match message with
    | .core (.profileRequest ..) => (service.handleProfileRequest, service)
    | .core (.hello ..) => service.handleHello now caller
    | .core (.heartbeat ..) => service.handleHeartbeat now caller
    | .core (.offlineAnnouncement ..) => service.handleOfflineAnnouncement caller
    | _ => (.none, service)
  (response, service.send (.messageReceived caller.nodeId message))

end FriendzService

end Tomb.Haruspex.Protocol
