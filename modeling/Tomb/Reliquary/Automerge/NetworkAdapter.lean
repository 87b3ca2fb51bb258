import Mathlib.Data.List.Basic
import Mathlib.Logic.Function.Basic
import Tomb.Lib.Runs

/-! The peers of the network adapter that syncs automerge documents over iroh streams: which peers it
is meant to stay connected to, their streams, and the calls that wait for a node, a dial or a timer.
A step is one call of the adapter, one promise that settles, one timer that fires or one stream that
comes in; between two awaits nothing interrupts it. The accept loop is left out: its streams come in
at any time. So are the listeners, and the delays. -/
namespace Tomb.Reliquary.Automerge
open Function (update)

def reconnectMaxAttempts : Nat := 8

def maxDials : Nat := 4

structure ReconnectState where
  attempt : Nat
  timer : Bool

/-- A call that waits, and what for: `fetching` if it waits for the node to be created. -/
inductive Call where
  | addPeerNode (nodeId : String) (fetching : Bool)
  | addPeerDial (nodeId : String) (attempt : Nat)
  | addPeerPause (nodeId : String) (attempt : Nat)
  | attemptReconnectNode (peerId : String) (fetching : Bool)
  | attemptReconnectDial (peerId : String)
  | restart (fetching : Bool)
  | readLoop (peerId : String) (stream : Nat)

def Call.concerns (p : String) : Call → Bool
  | addPeerNode nodeId _ | addPeerDial nodeId _ | addPeerPause nodeId _ => nodeId = p
  | attemptReconnectNode peerId _ | attemptReconnectDial peerId => peerId = p
  | restart _ => true
  | readLoop _ _ => false

structure NetworkAdapter where
  midden : Bool
  streams : String → Option Nat
  readLoops : String → Bool
  (intendedPeers failedPeers : List String)
  reconnectState : String → Option ReconnectState
  (stopped disconnected : Bool)
  calls : List Call
  nextStream : Nat

namespace NetworkAdapter

def fresh : NetworkAdapter where
  midden := false
  streams _ := none
  readLoops _ := false
  intendedPeers := []
  failedPeers := []
  reconnectState _ := none
  stopped := false
  disconnected := false
  calls := []
  nextStream := 0

variable (s : NetworkAdapter)

def running : Bool := !s.stopped && !s.disconnected

def await (call : Call) : NetworkAdapter := { s with calls := s.calls ++ [call] }

def clearReconnectState (peerId : String) : NetworkAdapter :=
  { s with reconnectState := update s.reconnectState peerId none }

def scheduleReconnect (peerId : String) : NetworkAdapter :=
  if !s.running then s
  else if (s.streams peerId).isSome then s
  else
    let state := (s.reconnectState peerId).getD ⟨0, false⟩
    if state.attempt ≥ reconnectMaxAttempts then
      clearReconnectState { s with
        intendedPeers := s.intendedPeers.filter (· ≠ peerId)
        failedPeers := s.failedPeers.insert peerId } peerId
    else
      { s with reconnectState := update s.reconnectState peerId (some { state with timer := true }) }

def removePeer (peerId : String) : NetworkAdapter :=
  let closed := { s with
    streams := update s.streams peerId none
    readLoops := update s.readLoops peerId false }
  if s.running && peerId ∈ s.intendedPeers then closed.scheduleReconnect peerId else closed

def endReadLoop (peerId : String) (stream : Nat) : NetworkAdapter :=
  if s.streams peerId = some stream then s.removePeer peerId else s

def startReadLoop (peerId : String) (stream : Nat) : NetworkAdapter :=
  let started := { s with readLoops := update s.readLoops peerId true }
  if s.running then started.await (.readLoop peerId stream) else started.endReadLoop peerId stream

def registerStream (peerId : String) : NetworkAdapter :=
  let stream := s.nextStream
  startReadLoop (clearReconnectState { s with
    streams := update s.streams peerId (some stream)
    nextStream := stream + 1 } peerId) peerId stream

def addPeer (nodeId : String) : NetworkAdapter :=
  if s.disconnected then s
  else
    let remembered := clearReconnectState { s with
      intendedPeers := s.intendedPeers.insert nodeId
      failedPeers := s.failedPeers.filter (· ≠ nodeId) } nodeId
    if s.stopped then remembered
    else if (s.streams nodeId).isSome then remembered
    else remembered.await (.addPeerNode nodeId (!s.midden))

def forgetPeer (nodeId : String) : NetworkAdapter :=
  removePeer (clearReconnectState { s with
    intendedPeers := s.intendedPeers.filter (· ≠ nodeId)
    failedPeers := s.failedPeers.filter (· ≠ nodeId) } nodeId) nodeId

def retryPeer (peerId : String) : NetworkAdapter :=
  scheduleReconnect { s with intendedPeers := s.intendedPeers.insert peerId } peerId

def retryFailedPeers : NetworkAdapter :=
  if s.disconnected then s
  else s.failedPeers.foldl retryPeer { s with failedPeers := [] }

def stop : NetworkAdapter :=
  if s.stopped || s.disconnected then s
  else { s with
    stopped := true
    streams := fun _ => none
    readLoops := fun _ => false
    failedPeers := []
    reconnectState := fun _ => none
    midden := false }

def restart : NetworkAdapter :=
  if !s.stopped || s.disconnected then s
  else { s with stopped := false }.await (.restart (!s.midden))

def disconnect : NetworkAdapter :=
  { s with
    disconnected := true
    streams := fun _ => none
    readLoops := fun _ => false
    intendedPeers := []
    failedPeers := []
    reconnectState := fun _ => none }

def attemptReconnect (peerId : String) : NetworkAdapter :=
  if !s.running then s
  else if (s.streams peerId).isSome then s.clearReconnectState peerId
  else if peerId ∉ s.intendedPeers then s
  else
    let state := (s.reconnectState peerId).map fun state => { state with attempt := state.attempt + 1 }
    { s with reconnectState := update s.reconnectState peerId state }.await
      (.attemptReconnectNode peerId (!s.midden))

def fireTimer (peerId : String) : NetworkAdapter :=
  match s.reconnectState peerId with
  | some ⟨attempt, true⟩ =>
    attemptReconnect { s with
      reconnectState := update s.reconnectState peerId (some ⟨attempt, false⟩) } peerId
  | _ => s

/-- What a call does when what it waits for has come (`ok`) or failed. For a read loop what comes is
a message, and a stream that has ended or thrown fails. Only a node that is being created can fail. -/
def resume (ok : Bool) : Call → NetworkAdapter
  | .addPeerNode nodeId fetching =>
    if ok || !fetching then { s with midden := true }.await (.addPeerDial nodeId 1) else s
  | .addPeerDial nodeId attempt =>
    if ok then s.registerStream nodeId
    else if attempt < maxDials then s.await (.addPeerPause nodeId attempt)
    else s
  | .addPeerPause nodeId attempt => s.await (.addPeerDial nodeId (attempt + 1))
  | .attemptReconnectNode peerId fetching =>
    if ok || !fetching then { s with midden := true }.await (.attemptReconnectDial peerId)
    else s.scheduleReconnect peerId
  | .attemptReconnectDial peerId =>
    if ok then s.registerStream peerId else s.scheduleReconnect peerId
  | .restart fetching =>
    if ok || !fetching then s.intendedPeers.foldl addPeer { s with midden := true } else s
  | .readLoop peerId stream =>
    if ok && s.readLoops peerId && s.running then s.await (.readLoop peerId stream)
    else s.endReadLoop peerId stream

def settle (i : Nat) (ok : Bool) : NetworkAdapter :=
  match s.calls[i]? with
  | none => s
  | some call => resume { s with calls := s.calls.eraseIdx i } ok call

end NetworkAdapter

/-- One step of the adapter. `writeFailed` is a message that could not be sent on the stream of a
peer, `nodeStarted` the node that comes up with the identity. -/
inductive Step where
  | addPeer (nodeId : String)
  | forgetPeer (nodeId : String)
  | retryFailedPeers
  | stop
  | restart
  | disconnect
  | nodeStarted
  | inbound (peerId : String)
  | writeFailed (peerId : String)
  | timer (peerId : String)
  | settle (i : Nat) (ok : Bool)

def NetworkAdapter.step : Step → NetworkAdapter → NetworkAdapter
  | .addPeer nodeId, s => s.addPeer nodeId
  | .forgetPeer nodeId, s => s.forgetPeer nodeId
  | .retryFailedPeers, s => s.retryFailedPeers
  | .stop, s => s.stop
  | .restart, s => s.restart
  | .disconnect, s => s.disconnect
  | .nodeStarted, s => { s with midden := true }
  | .inbound peerId, s => s.registerStream peerId
  | .writeFailed peerId, s => s.removePeer peerId
  | .timer peerId, s => s.fireTimer peerId
  | .settle i ok, s => s.settle i ok

end Tomb.Reliquary.Automerge
