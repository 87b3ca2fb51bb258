import Tomb.Rathole.Dispatch

/-! Spume's mirror of queue edits onto the remote player that it controls, and that player. Commands
and statuses may be lost and overtake each other. -/
namespace Tomb.Spume
open Rathole

/-- An entry of the player's queue. The key, which tells it from every other, is not on the wire. -/
structure Slot where
  entry : QueueEntry
  key : Nat
  deriving DecidableEq

def Slot.ref (slot : Slot) : MediaRef := queueEntryToMediaRef slot.entry

def Slot.hash (slot : Slot) : String := slot.ref.blake3Hash

inductive Command where
  | removeFromQueue (index : Nat)
  | reorderQueue (fromIndex toIndex : Nat)

def Command.handle {ε : Type} : Command → App ε → App ε
  | removeFromQueue index, app => app.removeFromQueue index
  | reorderQueue fromIndex toIndex, app => app.reorderQueue fromIndex toIndex

inductive EditKind where
  | remove
  | reorder
  deriving DecidableEq

structure PendingRemoteEdit where
  kind : EditKind
  hash : String
  toIndex : Option Nat
  attempts : Nat

def maxPendingEditAttempts : Nat := 5

def trackPendingEdit (remoteQueue : List MediaRef) (kind : EditKind) (fromIndex : Nat)
    (toIndex : Option Nat) (pendingEdits : List PendingRemoteEdit) : List PendingRemoteEdit :=
  match remoteQueue[fromIndex]? with
  | none => pendingEdits
  | some target => pendingEdits ++ [⟨kind, target.blake3Hash, toIndex, 0⟩]

@[grind =] def liveIndexByHash (hash : String) : List MediaRef → Option Nat
  | [] => none
  | ref :: rest =>
    match liveIndexByHash hash rest with
    | some index => some (index + 1)
    | none => if ref.blake3Hash = hash then some 0 else none

@[grind =] def reconcileEdit (remoteQueue : List MediaRef) (edit : PendingRemoteEdit) :
    Option PendingRemoteEdit × List Command :=
  match liveIndexByHash edit.hash remoteQueue with
  | none => (none, [])
  | some liveIndex =>
    if edit.kind = .reorder ∧ edit.toIndex = some liveIndex then (none, [])
    else if maxPendingEditAttempts ≤ edit.attempts then (none, [])
    else (some { edit with attempts := edit.attempts + 1 },
      match edit.kind, edit.toIndex with
      | .remove, _ => [.removeFromQueue liveIndex]
      | .reorder, some toIndex => [.reorderQueue liveIndex toIndex]
      | .reorder, none => [])

def reconcilePendingEdits (status : Option PlayerStatus) (pendingEdits : List PendingRemoteEdit) :
    List PendingRemoteEdit × List Command :=
  match status with
  | none => ([], [])
  | some status =>
    (pendingEdits.filterMap fun edit => (reconcileEdit status.common.queue edit).1,
      pendingEdits.flatMap fun edit => (reconcileEdit status.common.queue edit).2)

/-- The player, what is on its way to it and back, and the client. `removals` are the entries that the
client has removed, and `givenUp` the hashes of the edits that it has given up. -/
structure Mirror where
  app : App Slot
  /-- The commands that the ui loop has yet to handle. -/
  (actionTx commands : List Command)
  statuses : List PlayerStatus
  remoteStatus : Option PlayerStatus
  pendingEdits : List PendingRemoteEdit
  removals : List Slot
  givenUp : List String

/-- What happens next. A removal names the entry of the player's queue that it is meant for; messages
are named by their place among those under way. -/
inductive Act where
  | remove (slot : Slot) (localIndex currentIndex : Int)
  | deliverCommand (n : Nat) (isPlaying : Bool) (positionMs : Nat)
  | loseCommand (n : Nat)
  | handle
  | report (isPlaying : Bool) (positionMs : Nat)
  | applyStatus (n : Nat)
  | loseStatus (n : Nat)
  | resetStatus

namespace Mirror

def remoteQueue (s : Mirror) : List MediaRef :=
  match s.remoteStatus with
  | some status => status.common.queue
  | none => []

def status (s : Mirror) (isPlaying : Bool) (positionMs : Nat) : PlayerStatus :=
  (DispatchContext.of Slot.ref s.app isPlaying positionMs).statusAck

def mirrorRemove (s : Mirror) (slot : Slot) (remoteIndex : Nat) : Mirror :=
  { s with
    pendingEdits := trackPendingEdit s.remoteQueue .remove remoteIndex none s.pendingEdits
    commands := s.commands ++ [.removeFromQueue remoteIndex]
    removals := s.removals ++ [slot] }

def abandoned (status : PlayerStatus) (pendingEdits : List PendingRemoteEdit) : List String :=
  (pendingEdits.filter fun edit => (liveIndexByHash edit.hash status.common.queue).isSome &&
    maxPendingEditAttempts ≤ edit.attempts).map (·.hash)

def applyRemoteStatus (s : Mirror) (status : PlayerStatus) : Mirror :=
  { s with
    remoteStatus := some status
    pendingEdits := (reconcilePendingEdits (some status) s.pendingEdits).1
    commands := s.commands ++ (reconcilePendingEdits (some status) s.pendingEdits).2
    givenUp := s.givenUp ++ abandoned status s.pendingEdits }

@[grind =] def step : Act → Mirror → Mirror
  | .remove slot localIndex currentIndex, s =>
    if currentIndex < 0 ∨ localIndex - currentIndex < 0 then s
    else s.mirrorRemove slot (localIndex - currentIndex).toNat
  | .deliverCommand n isPlaying positionMs, s =>
    match s.commands[n]? with
    | none => s
    | some command =>
      { s with
        commands := s.commands.eraseIdx n
        actionTx := s.actionTx ++ [command]
        statuses := s.statuses ++ [s.status isPlaying positionMs] }
  | .loseCommand n, s => { s with commands := s.commands.eraseIdx n }
  | .handle, s =>
    match s.actionTx with
    | [] => s
    | command :: rest => { s with app := command.handle s.app, actionTx := rest }
  | .report isPlaying positionMs, s =>
    { s with statuses := s.statuses ++ [s.status isPlaying positionMs] }
  | .applyStatus n, s =>
    match s.statuses[n]? with
    | none => s
    | some status => { s with statuses := s.statuses.eraseIdx n }.applyRemoteStatus status
  | .loseStatus n, s => { s with statuses := s.statuses.eraseIdx n }
  | .resetStatus, s =>
    { s with
      remoteStatus := none
      pendingEdits := if s.remoteStatus.isNone then s.pendingEdits else []
      givenUp := if s.remoteStatus.isNone then s.givenUp
        else s.givenUp ++ s.pendingEdits.map (·.hash) }

def start (app : App QueueEntry) : Mirror where
  app := {
    queue := app.queue.mapIdx fun key entry => ⟨entry, key⟩
    current := app.current
    history := app.history.mapIdx fun key entry => ⟨entry, key⟩
    radio := app.radio
    pendingPreviews := app.pendingPreviews
    unresolvedItems := app.unresolvedItems }
  actionTx := []
  commands := []
  statuses := []
  remoteStatus := none
  pendingEdits := []
  removals := []
  givenUp := []

theorem aligned_start {app : App QueueEntry} (aligned : app.Aligned) :
    (start app).app.Aligned := by
  rw [App.Aligned] at aligned ⊢
  simp only [start, aligned, List.mapIdx_eq_nil_iff]

end Mirror

end Tomb.Spume
