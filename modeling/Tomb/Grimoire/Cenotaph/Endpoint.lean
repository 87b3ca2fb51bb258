import Mathlib.Logic.Function.Basic
import Tomb.Grimoire.Cenotaph.Session
import Tomb.Lib.Entries
import Tomb.Lib.Runs

/-! The control streams of a native player. Who a peer is, is looked up when its stream is opened;
whether it is in the session, at every command. -/
namespace Tomb.Grimoire.Cenotaph
open Function (update update_self update_of_ne)
open Tomb.Lib

structure Stream where
  peer : String
  role : PeerRole

inductive Line where
  | getStatus
  | playback
  /-- It is no command. -/
  | unknown
  deriving DecidableEq

structure Cleared where
  stream : Stream
  session : PlayerSession
  allowed : session.isPeerAllowed stream.peer (some stream.role) = true

inductive Await where
  | reading (stream : Stream)
  /-- The lock is given back, and the command is not yet handed on. -/
  | cleared (command : Cleared)
  | replying (stream : Stream)
  | closed

inductive Event where
  /-- The node was linked to a user, or its user got another role. -/
  | trusted (peer : String)
  | forgot (peer : String)
  /-- The consumer got a command, which the peer was authorised to send or not. -/
  | dispatched (peer : String) (authorised : Bool)
  deriving DecidableEq

structure Endpoint where
  session : Option PlayerSession := none
  /-- The role of the user that a node is linked to. -/
  roles : String → Option PeerRole := fun _ => none
  streams : List Await := []
  /-- The controllers that have left the session and are still trusted. -/
  removing : List String := []
  log : List Event := []

inductive Op where
  | handleStream (peer : String)
  | line (stream : Nat) (line : Line) (now : Int)
  | dispatch (stream : Nat) (now : Int)
  | reply (stream : Nat)
  | close (stream : Nat)
  | presenceQuery (now : Int)
  | trust (peer : String) (role : PeerRole)
  | untrust (peer : String)
  | join (peer : String) (now : Int)
  | setSessionMode (mode : SessionMode) (now : Int)
  | removeController (peer : String) (now : Int)
  /-- The rest of a removal. -/
  | removePeerNode (removal : Nat)

namespace Endpoint

variable (s : Endpoint)

def active (now : Int) : PlayerSession := .ensureActive s.session now

def authorised (peer : String) (now : Int) : Bool :=
  match s.roles peer with
  | none => false
  | some role => (s.active now).isPeerAllowed peer (some role)

def goto (stream : Nat) (await : Await) : Endpoint :=
  { s with streams := s.streams.set stream await }

def note (event : Event) : Endpoint := { s with log := s.log ++ [event] }

def untrust (peer : String) : Endpoint :=
  { s with roles := update s.roles peer none }.note (.forgot peer)

def processCommandLine (index : Nat) (stream : Stream) (line : Line) (now : Int) : Endpoint :=
  let session := s.active now
  if line = .getStatus then
    { s with session := some (session.touch now) }.goto index (.replying stream)
  else if allowed : session.isPeerAllowed stream.peer (some stream.role) = true then
    { s with session := some (session.touch now) }.goto index
      (if line = Line.playback then .cleared ⟨stream, session.touch now, allowed⟩ else .reading stream)
  else { s with session := some session }

def step : Op → Endpoint → Endpoint
  | .handleStream peer, s =>
    match s.roles peer with
    | none => s
    | some role => { s with streams := s.streams ++ [.reading ⟨peer, role⟩] }
  | .line index line now, s =>
    match s.streams[index]? with
    | some (.reading stream) => s.processCommandLine index stream line now
    | _ => s
  | .dispatch index now, s =>
    match s.streams[index]? with
    | some (.cleared command) =>
      (s.note (.dispatched command.stream.peer (s.authorised command.stream.peer now))).goto index
        (.replying command.stream)
    | _ => s
  | .reply index, s =>
    match s.streams[index]? with
    | some (.replying stream) => s.goto index (.reading stream)
    | _ => s
  | .close index, s => s.goto index .closed
  | .presenceQuery now, s => { s with session := some (s.active now) }
  | .trust peer role, s =>
    { s with roles := update s.roles peer (some role) }.note (.trusted peer)
  | .untrust peer, s => s.untrust peer
  | .join peer now, s => { s with session := some ((s.active now).join peer now) }
  | .setSessionMode mode now, s => { s with session := some ((s.active now).setMode mode now) }
  | .removeController peer now, s =>
    { s with session := s.session.map (·.leave peer now), removing := s.removing ++ [peer] }
  | .removePeerNode removal, s =>
    match s.removing[removal]? with
    | some peer => { s with removing := s.removing.eraseIdx removal }.untrust peer
    | none => s

/-- At a dispatch the peer has the role that its stream was opened with, and the session is for it
as it was when the command was let in. -/
def Current : Op → Endpoint → Prop
  | .dispatch index now, s =>
    match s.streams[index]? with
    | some (.cleared command) => s.roles command.stream.peer = some command.stream.role ∧
        (s.active now).mode = command.session.mode ∧
        (command.stream.peer ∈ (s.active now).allowedNodeIds ↔
          command.stream.peer ∈ command.session.allowedNodeIds)
    | _ => True
  | _, _ => True

instance : (op : Op) → (s : Endpoint) → Decidable (Current op s)
  | .dispatch index now, s =>
    match found : s.streams[index]? with
    | some (.cleared command) => decidable_of_iff
        (s.roles command.stream.peer = some command.stream.role ∧
          (s.active now).mode = command.session.mode ∧
          (command.stream.peer ∈ (s.active now).allowedNodeIds ↔
            command.stream.peer ∈ command.session.allowedNodeIds)) (by simp only [Current, found])
    | some (.reading _) => .isTrue (by simp only [Current, found])
    | some (.replying _) => .isTrue (by simp only [Current, found])
    | some .closed => .isTrue (by simp only [Current, found])
    | none => .isTrue (by simp only [Current, found])
  | .handleStream _, _ => .isTrue trivial
  | .line _ _ _, _ => .isTrue trivial
  | .reply _, _ => .isTrue trivial
  | .close _, _ => .isTrue trivial
  | .presenceQuery _, _ => .isTrue trivial
  | .trust _ _, _ => .isTrue trivial
  | .untrust _, _ => .isTrue trivial
  | .join _ _, _ => .isTrue trivial
  | .setSessionMode _ _, _ => .isTrue trivial
  | .removeController _ _, _ => .isTrue trivial
  | .removePeerNode _, _ => .isTrue trivial

end Endpoint

def Event.tells (peer : String) : Event → Option Bool
  | trusted other => if other = peer then some true else none
  | forgot other => if other = peer then some false else none
  | dispatched _ _ => none

/-- A command was authorised, and its peer was not forgotten. -/
def Event.Right (before : List Event) : Event → Prop
  | dispatched peer authorised =>
    authorised = true ∧ lastTold (Event.tells peer) before ≠ some false
  | _ => True

namespace Endpoint

variable {s s' : Endpoint}

/-- Every command was authorised, and whoever the log has as forgotten is not trusted. -/
structure Authorised (s : Endpoint) : Prop where
  right : EachRight Event.Right s.log
  forgotten : ∀ peer, lastTold (Event.tells peer) s.log = some false → s.roles peer = none

theorem Authorised.same (inv : Authorised s) (log : s'.log = s.log) (roles : s'.roles = s.roles) :
    Authorised s' := by
  constructor
  · rw [log]
    exact inv.right
  · rw [log, roles]
    exact inv.forgotten

theorem Authorised.untrust (inv : Authorised s) (peer : String) : Authorised (s.untrust peer) := by
  refine ⟨inv.right.concat trivial, fun other told => ?_⟩
  by_cases same : other = peer
  · subst same
    exact update_self other none s.roles
  · have silent : (Event.forgot peer).tells other = none := if_neg (Ne.symm same)
    refine (update_of_ne same none s.roles).trans (inv.forgotten other ?_)
    rwa [show (s.untrust peer).log = s.log ++ [.forgot peer] from rfl, lastTold_concat, silent,
      Option.none_or] at told

theorem Authorised.trust (inv : Authorised s) (peer : String) (role : PeerRole) :
    Authorised (step (.trust peer role) s) := by
  refine ⟨inv.right.concat trivial, fun other told => ?_⟩
  rw [show (step (.trust peer role) s).log = s.log ++ [.trusted peer] from rfl,
    lastTold_concat] at told
  by_cases same : other = peer
  · rw [show (Event.trusted peer).tells other = some true from if_pos same.symm] at told
    cases told
  · rw [show (Event.trusted peer).tells other = none from if_neg (Ne.symm same),
      Option.none_or] at told
    exact (update_of_ne same (some role) s.roles).trans (inv.forgotten other told)

theorem authorised_of_current {command : Cleared} {now : Int}
    (role : s.roles command.stream.peer = some command.stream.role)
    (mode : (s.active now).mode = command.session.mode)
    (listed : command.stream.peer ∈ (s.active now).allowedNodeIds ↔
      command.stream.peer ∈ command.session.allowedNodeIds) :
    s.authorised command.stream.peer now = true := by
  have allowed := command.allowed
  unfold PlayerSession.isPeerAllowed at allowed
  unfold authorised
  rw [role]
  dsimp only
  unfold PlayerSession.isPeerAllowed
  rw [mode, decide_eq_decide.mpr listed]
  exact allowed

theorem step_authorised (op : Op) (s : Endpoint) (current : Current op s) (inv : Authorised s) :
    Authorised (step op s) := by
  cases op with
  | handleStream peer =>
    unfold step
    dsimp only
    split
    · exact inv
    · exact inv.same rfl rfl
  | line index line now =>
    unfold step
    dsimp only
    split
    · dsimp only [processCommandLine]
      split
      · exact inv.same rfl rfl
      · split
        · exact inv.same rfl rfl
        · exact inv.same rfl rfl
    · exact inv
  | dispatch index now =>
    unfold step
    unfold Current at current
    dsimp only at current ⊢
    split
    · rename_i command found
      rw [found] at current
      obtain ⟨role, mode, listed⟩ := current
      refine ⟨inv.right.concat ⟨authorised_of_current role mode listed, fun told => ?_⟩, ?_⟩
      · rw [inv.forgotten _ told] at role
        cases role
      · intro peer told
        refine inv.forgotten peer ?_
        rwa [show ((s.note _).goto index _).log = s.log ++ [_] from rfl, lastTold_concat,
          show (Event.dispatched _ _).tells peer = none from rfl, Option.none_or] at told
    · exact inv
  | reply index =>
    unfold step
    dsimp only
    split
    · exact inv.same rfl rfl
    · exact inv
  | close index => exact inv.same rfl rfl
  | presenceQuery now => exact inv.same rfl rfl
  | trust peer role => exact inv.trust peer role
  | untrust peer => exact inv.untrust peer
  | join peer now => exact inv.same rfl rfl
  | setSessionMode mode now => exact inv.same rfl rfl
  | removeController peer now => exact inv.same rfl rfl
  | removePeerNode removal =>
    unfold step
    dsimp only
    split
    · rename_i peer _
      have left : Authorised { s with removing := s.removing.eraseIdx removal } := inv.same rfl rfl
      exact left.untrust peer
    · exact inv

end Endpoint

end Tomb.Grimoire.Cenotaph
