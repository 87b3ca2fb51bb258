import Mathlib.Algebra.Ring.Nat
import Mathlib.Data.List.Infix

/-! A broadcaster that publishes the chunks of one track after the other, and the listeners that it
feeds. A publish is three steps: take a seq, change the state under the write lock, send the chunk to
the channel. A listener takes a snapshot of the state and subscribes to the channel under the read
lock. The now-playing data, the control messages other than the lag notice, and the pacing of the
chunks are left out. -/
namespace Tomb.Grimoire.Radio

def chunkChannelCapacity : Nat := 32

structure Chunk where
  seq : Nat
  isInit : Bool
  bytes : List UInt8
  durationMs : Option Nat
  track : Nat
  deriving DecidableEq

structure BroadcastState where
  currentInit : Option Chunk
  ring : List Chunk
  ringCapacity : Nat

namespace BroadcastState

def empty (ringCapacity : Nat) : BroadcastState := ⟨none, [], ringCapacity⟩

def publishInit (init : Chunk) (s : BroadcastState) : BroadcastState :=
  { s with currentInit := some init, ring := [] }

def publishMedia (chunk : Chunk) (s : BroadcastState) : BroadcastState :=
  let ring := s.ring ++ [chunk]
  { s with ring := if s.ringCapacity < ring.length then ring.tail else ring }

def publish (chunk : Chunk) (s : BroadcastState) : BroadcastState :=
  if chunk.isInit then s.publishInit chunk else s.publishMedia chunk

def clear (s : BroadcastState) : BroadcastState := { s with currentInit := none, ring := [] }

def catchup (fromSeq : Option Nat) (s : BroadcastState) : List Chunk :=
  s.ring.filter fun c => fromSeq.all (· ≤ c.seq)

end BroadcastState

/-- Where the publisher stands: it plays a track or none; it has a chunk with a seq; the state has
this chunk. -/
inductive Publishing where
  | ready (track : Option Nat)
  | allocated (chunk : Chunk)
  | updated (chunk : Chunk)

/-- Where a listener stands: it is about to subscribe; it has a snapshot and holds the read lock; it
is subscribed, with what it has written, what it has to write, and its place in the channel. -/
inductive Listening where
  | waiting (fromSeq : Option Nat)
  | reading (init : Option Chunk) (catchup : List Chunk)
  | live (written toWrite : List Chunk) (next : Nat)

structure Listener where
  listening : Listening
  finished : List (List Chunk)

def Listener.isReading (l : Listener) : Bool :=
  match l.listening with
  | .reading _ _ => true
  | _ => false

def Listener.parts (l : Listener) : List (List Chunk) :=
  match l.listening with
  | .live written _ _ => written :: l.finished
  | _ => l.finished

structure Broadcaster where
  (nextSeq tracks : Nat)
  state : BroadcastState
  publishing : Publishing
  sent : List Chunk
  listeners : List Listener

inductive BroadcastOp where
  | startTrack (bytes : List UInt8)
  | nextChunk (bytes : List UInt8) (durationMs : Option Nat)
  | update
  | send
  | clear
  | tune (fromSeq : Option Nat)
  | snapshot (listener : Nat)
  | attach (listener : Nat)
  | forward (listener : Nat)

namespace Broadcaster

def new (ringCapacity : Nat) : Broadcaster :=
  ⟨0, 0, .empty ringCapacity, .ready none, [], []⟩

def locked (b : Broadcaster) : Bool := b.listeners.any Listener.isReading

def fetchAddSeq (b : Broadcaster) : Nat := (b.nextSeq + 1) % 2 ^ 32

def startTrack (bytes : List UInt8) (b : Broadcaster) : Broadcaster :=
  match b.publishing with
  | .ready _ => { b with
      nextSeq := b.fetchAddSeq
      tracks := b.tracks + 1
      publishing := .allocated ⟨b.nextSeq, true, bytes, none, b.tracks⟩ }
  | _ => b

def nextChunk (bytes : List UInt8) (durationMs : Option Nat) (b : Broadcaster) : Broadcaster :=
  match b.publishing with
  | .ready (some track) => { b with
      nextSeq := b.fetchAddSeq
      publishing := .allocated ⟨b.nextSeq, false, bytes, durationMs, track⟩ }
  | _ => b

def update (b : Broadcaster) : Broadcaster :=
  match b.publishing with
  | .allocated chunk =>
    if b.locked then b
    else { b with state := b.state.publish chunk, publishing := .updated chunk }
  | _ => b

def send (b : Broadcaster) : Broadcaster :=
  match b.publishing with
  | .updated chunk =>
    { b with sent := b.sent ++ [chunk], publishing := .ready (some chunk.track) }
  | _ => b

def clear (b : Broadcaster) : Broadcaster :=
  match b.publishing with
  | .ready _ => if b.locked then b else { b with state := b.state.clear, publishing := .ready none }
  | _ => b

def setListener (i : Nat) (l : Listener) (b : Broadcaster) : Broadcaster :=
  { b with listeners := b.listeners.set i l }

def tune (fromSeq : Option Nat) (b : Broadcaster) : Broadcaster :=
  { b with listeners := b.listeners ++ [⟨.waiting fromSeq, []⟩] }

def snapshot (i : Nat) (b : Broadcaster) : Broadcaster :=
  match b.listeners[i]? with
  | some ⟨.waiting fromSeq, finished⟩ =>
    b.setListener i ⟨.reading b.state.currentInit (b.state.catchup fromSeq), finished⟩
  | _ => b

def attach (i : Nat) (b : Broadcaster) : Broadcaster :=
  match b.listeners[i]? with
  | some ⟨.reading init catchup, finished⟩ =>
    b.setListener i ⟨.live [] (init.toList ++ catchup) b.sent.length, finished⟩
  | _ => b

/-- Write a chunk of the snapshot, or else what the channel has next. A listener that is more than
the channel's capacity behind is told so, and subscribes again. -/
def forward (i : Nat) (b : Broadcaster) : Broadcaster :=
  match b.listeners[i]? with
  | some ⟨.live written (chunk :: rest) next, finished⟩ =>
    b.setListener i ⟨.live (written ++ [chunk]) rest next, finished⟩
  | some ⟨.live written [] next, finished⟩ =>
    if chunkChannelCapacity < b.sent.length - next then
      b.setListener i ⟨.waiting none, written :: finished⟩
    else
      match b.sent[next]? with
      | some chunk => b.setListener i ⟨.live (written ++ [chunk]) [] (next + 1), finished⟩
      | none => b
  | _ => b

def step : BroadcastOp → Broadcaster → Broadcaster
  | .startTrack bytes, b => b.startTrack bytes
  | .nextChunk bytes durationMs, b => b.nextChunk bytes durationMs
  | .update, b => b.update
  | .send, b => b.send
  | .clear, b => b.clear
  | .tune fromSeq, b => b.tune fromSeq
  | .snapshot i, b => b.snapshot i
  | .attach i, b => b.attach i
  | .forward i, b => b.forward i

@[grind =] def published (b : Broadcaster) : List Chunk :=
  match b.publishing with
  | .updated chunk => b.sent ++ [chunk]
  | _ => b.sent

end Broadcaster

end Tomb.Grimoire.Radio
