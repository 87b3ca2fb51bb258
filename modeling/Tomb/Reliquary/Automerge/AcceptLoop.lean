import Mathlib.Data.List.Perm.Basic
import Mathlib.Logic.Function.Basic
import Tomb.Lib.Runs

/-! The accept loop of the network adapter across stops and restarts: the node that `getNode` returns,
the calls that wait for it, and the loop that takes inbound streams from it. A step is one call, one
promise that settles or one timer that fires; between two awaits nothing interrupts it. What a failed
dial schedules is left out: the timer of a peer may fire at any time. -/
namespace Tomb.Reliquary.Automerge.AcceptLoop
open Function (update)
open Tomb.Lib

inductive EndpointState where
  | off
  | starting
  | online
  | error
  deriving DecidableEq

/-- What `ensureMidden` waits for: `getNode`, or only its turn where the node is there. -/
inductive Wait where
  | fetching
  | ready (node : Nat)
  deriving DecidableEq

/-- Where a loop is. It remembers how many stops there had been when it began to wait. -/
inductive Phase where
  | starting (wait : Wait)
  | accepting (node since : Nat)
  | pausing (node since : Nat)
  deriving DecidableEq

/-- What is under way. A loop remembers how many stops there had been when it was started. -/
inductive Task where
  | initializing (restarting : Bool) (wait : Wait)
  | restarted
  | dial (peerId : String) (wait : Wait)
  | opening (peerId : String)
  | loop (born : Nat) (phase : Phase)
  deriving DecidableEq

/-- Who opened a stream: the adapter, or the peer, and then which loop accepted it. -/
inductive Origin where
  | outbound
  | inbound (born : Nat)

structure Adapter where
  midden : Option Nat
  streams : String → Option Origin
  intendedPeers : List String
  (stopped disconnected acceptLoopRunning : Bool)
  endpointState : EndpointState
  tasks : List Task
  /-- What `getNode` returned last. -/
  lastNode : Option Nat
  /-- How often the adapter was stopped or disconnected. -/
  stops : Nat

/-- How a promise settles. A call whose turn comes, a dial that succeeds and a pause that is over are
`done`. -/
inductive Outcome where
  | node (node : Nat)
  | done
  | stream (peerId : String) (sync : Bool)
  | closed
  | failed
  deriving DecidableEq

namespace Adapter

def fresh : Adapter where
  midden := none
  streams _ := none
  intendedPeers := []
  stopped := false
  disconnected := false
  acceptLoopRunning := false
  endpointState := .off
  tasks := []
  lastNode := none
  stops := 0

variable (s : Adapter)

def running : Bool := !s.stopped && !s.disconnected

def await (task : Task) : Adapter := { s with tasks := s.tasks ++ [task] }

def ensureMidden : Wait :=
  match s.midden with
  | none => .fetching
  | some node => .ready node

def initializeNode (restarting : Bool) : Adapter :=
  { s with endpointState := .starting }.await (.initializing restarting s.ensureMidden)

def identityCreated : Adapter :=
  if s.midden.isNone && !s.disconnected then s.initializeNode false else s

def addPeer (nodeId : String) : Adapter :=
  if s.disconnected then s
  else
    let remembered := { s with intendedPeers := s.intendedPeers.insert nodeId }
    if s.stopped then remembered
    else if (s.streams nodeId).isSome then remembered
    else remembered.await (.dial nodeId s.ensureMidden)

def attemptReconnect (peerId : String) : Adapter :=
  if !s.running then s
  else if (s.streams peerId).isSome then s
  else if peerId ∉ s.intendedPeers then s
  else s.await (.dial peerId s.ensureMidden)

def removePeer (peerId : String) : Adapter := { s with streams := update s.streams peerId none }

def forgetPeer (nodeId : String) : Adapter :=
  { s with intendedPeers := s.intendedPeers.filter (· ≠ nodeId) }.removePeer nodeId

def stop : Adapter :=
  if s.stopped || s.disconnected then s
  else { s with
    stopped := true
    streams := fun _ => none
    midden := none
    endpointState := .off
    stops := s.stops + 1 }

def restart : Adapter :=
  if !s.stopped || s.disconnected then s
  else { s with stopped := false }.initializeNode true

def disconnect : Adapter :=
  { s with
    disconnected := true
    streams := fun _ => none
    intendedPeers := []
    endpointState := .off
    stops := s.stops + 1 }

def startAcceptLoop : Adapter :=
  if s.acceptLoopRunning then s
  else { s with acceptLoopRunning := true }.await (.loop s.stops (.starting s.ensureMidden))

def initialized (restarting : Bool) : Adapter :=
  let online := { s.startAcceptLoop with endpointState := .online }
  if restarting then online.await .restarted else online

def turn (born node : Nat) : Adapter :=
  if s.running then s.await (.loop born (.accepting node s.stops))
  else { s with acceptLoopRunning := false }

/-- What a task does when what it waits for has come or failed, if it waits for such a thing. The node
is cached before the call that asked for it goes on. -/
def resume : Task → Outcome → Option Adapter
  | .initializing restarting .fetching, .node node =>
    some ({ s with midden := some node, lastNode := some node }.await
      (.initializing restarting (.ready node)))
  | .initializing _ .fetching, .failed => some { s with endpointState := .error }
  | .initializing restarting (.ready _), .done => some (s.initialized restarting)
  | .restarted, .done => some (s.intendedPeers.foldl addPeer s)
  | .dial peerId .fetching, .node node =>
    some ({ s with midden := some node, lastNode := some node }.await (.dial peerId (.ready node)))
  | .dial _ .fetching, .failed => some s
  | .dial peerId (.ready _), .done => some (s.await (.opening peerId))
  | .opening peerId, .done => some { s with streams := update s.streams peerId (some .outbound) }
  | .opening _, .failed => some s
  | .loop born (.starting .fetching), .node node =>
    some ({ s with midden := some node, lastNode := some node }.await
      (.loop born (.starting (.ready node))))
  | .loop _ (.starting .fetching), .failed => some { s with acceptLoopRunning := false }
  | .loop born (.starting (.ready node)), .done => some (s.turn born node)
  | .loop born (.accepting node _), .stream peerId sync =>
    let taken := if sync then update s.streams peerId (some (.inbound born)) else s.streams
    some ({ s with streams := taken }.turn born node)
  | .loop _ (.accepting ..), .closed => some { s with acceptLoopRunning := false }
  | .loop born (.accepting node _), .failed =>
    some (if s.running then s.await (.loop born (.pausing node s.stops))
      else { s with acceptLoopRunning := false })
  | .loop born (.pausing node _), .done => some (s.turn born node)
  | _, _ => none

def settle (i : Nat) (outcome : Outcome) : Adapter :=
  match s.tasks[i]? with
  | none => s
  | some task => (resume { s with tasks := s.tasks.eraseIdx i } task outcome).getD s

end Adapter

/-- `connect` is a call of `connect` that finds an identity, `lost` a stream that ends or fails. -/
inductive Step where
  | connect
  | identityCreated
  | addPeer (nodeId : String)
  | forgetPeer (nodeId : String)
  | timer (peerId : String)
  | lost (peerId : String)
  | stop
  | restart
  | disconnect
  | settle (i : Nat) (outcome : Outcome)

def Adapter.step : Step → Adapter → Adapter
  | .connect, s => s.initializeNode false
  | .identityCreated, s => s.identityCreated
  | .addPeer nodeId, s => s.addPeer nodeId
  | .forgetPeer nodeId, s => s.forgetPeer nodeId
  | .timer peerId, s => s.attemptReconnect peerId
  | .lost peerId, s => s.removePeer peerId
  | .stop, s => s.stop
  | .restart, s => s.restart
  | .disconnect, s => s.disconnect
  | .settle i outcome, s => s.settle i outcome

def Task.fetching : Task → Bool
  | .initializing _ .fetching | .dial _ .fetching | .loop _ (.starting .fetching) => true
  | _ => false

def Task.isLoop : Task → Bool
  | .loop .. => true
  | _ => false

def Phase.node : Phase → Option Nat
  | .starting .fetching => none
  | .starting (.ready node) | .accepting node _ | .pausing node _ => some node

def Phase.since : Phase → Option Nat
  | .starting _ => none
  | .accepting _ since | .pausing _ since => some since

def Task.settled (stops : Nat) : Task → Bool
  | .loop _ phase => phase.since = some stops
  | _ => false

namespace Adapter

variable (s : Adapter)

def loops : List Task := s.tasks.filter Task.isLoop

/-- All calls have returned, and what stopped loops waited for has come. -/
def Settled : Prop := ∀ task ∈ s.tasks, task.settled s.stops = true

/-- One loop on the last node while the adapter is started and none while it is stopped, and no stream
that a loop of before the last stop accepted. -/
structure OneLoop : Prop where
  started : s.running = true → s.endpointState = .online →
    ∃ born phase node, s.loops = [.loop born phase] ∧ phase.node = some node ∧ s.lastNode = some node
  stopped : s.running = false → s.loops = []
  inbound : ∀ peerId born, s.streams peerId = some (.inbound born) → born = s.stops

/-- At no time two calls wait for `getNode`. No restart finds the loop of before the stop alive. A loop
that was stopped accepts no stream, and one that was not is neither closed nor left without its node. -/
def fits (s : Adapter) (step : Step) : Bool :=
  s.tasks.countP Task.fetching ≤ 1 &&
    match step with
    | .restart => !s.stopped || s.disconnected || !s.acceptLoopRunning
    | .settle i outcome =>
      match s.tasks[i]?, outcome with
      | some (.loop _ (.accepting ..)), .stream _ true => s.running
      | some (.loop _ (.accepting ..)), .closed => !s.running
      | some (.loop _ (.starting .fetching)), .failed => !s.running
      | _, _ => true
    | _ => true

variable {s s' : Adapter}

def Good (s : Adapter) (task : Task) : Prop :=
  (task.fetching = true → s.midden = none) ∧
    ∀ born phase, task = .loop born phase → born ≤ s.stops ∧
      (s.running = true → born = s.stops) ∧
      (born = s.stops → ∀ node, phase.node = some node → s.midden = some node) ∧
      ∀ since, phase.since = some since → since ≤ s.stops ∧ (s.running = false → since < s.stops)

structure Invariant (s : Adapter) : Prop where
  loops : s.tasks.countP Task.isLoop = s.acceptLoopRunning.toNat
  tasks : ∀ task ∈ s.tasks, s.Good task
  known : ∀ node, s.midden = some node → s.lastNode = some node
  online : s.running = true → s.endpointState = .online → s.acceptLoopRunning = true
  inbound : ∀ peerId born, s.streams peerId = some (.inbound born) → born = s.stops

variable {task : Task}

theorem Good.congr (good : s.Good task) (midden : s'.midden = s.midden)
    (stops : s'.stops = s.stops) (running : s'.running = s.running) : s'.Good task := by
  unfold Good
  rw [midden, stops, running]
  exact good

theorem good_of_call (call : task.isLoop = false)
    (waits : task.fetching = true → s.midden = none) : s.Good task :=
  ⟨waits, fun born phase same => by rw [same] at call; exact Bool.noConfusion call⟩

theorem Invariant.await (inv : s.Invariant) (call : task.isLoop = false)
    (waits : task.fetching = true → s.midden = none) : (s.await task).Invariant where
  loops := by
    rw [Adapter.await, List.countP_append, inv.loops, List.countP_singleton, call]
    rfl
  tasks other member := by
    rcases List.mem_append.mp member with member | member
    · exact inv.tasks other member
    · rw [List.mem_singleton.mp member]
      exact good_of_call call waits
  known := inv.known
  online := inv.online
  inbound := inv.inbound

theorem Invariant.await_node (inv : s.Invariant) (call : Wait → Task)
    (calls : ∀ wait, (call wait).isLoop = false) (ready : ∀ node, (call (.ready node)).fetching = false) :
    (s.await (call s.ensureMidden)).Invariant := by
  refine inv.await (calls _) fun waits => ?_
  unfold ensureMidden at waits
  split at waits
  · assumption
  · exact Bool.noConfusion (waits.symm.trans (ready _))

theorem Invariant.await_dial (inv : s.Invariant) (peerId : String) :
    (s.await (.dial peerId s.ensureMidden)).Invariant :=
  inv.await_node (.dial peerId) (fun _ => rfl) fun _ => rfl

theorem Invariant.peers (inv : s.Invariant) (peers : List String) :
    { s with intendedPeers := peers }.Invariant :=
  ⟨inv.loops, inv.tasks, inv.known, inv.online, inv.inbound⟩

theorem Invariant.streams (inv : s.Invariant) {streams : String → Option Origin}
    (inbound : ∀ peerId born, streams peerId = some (.inbound born) → born = s.stops) :
    { s with streams := streams }.Invariant :=
  ⟨inv.loops, inv.tasks, inv.known, inv.online, inbound⟩

theorem Invariant.update_streams (inv : s.Invariant) (peerId : String) {origin : Option Origin}
    (inbound : ∀ born, origin = some (.inbound born) → born = s.stops) :
    { s with streams := update s.streams peerId origin }.Invariant := by
  refine inv.streams fun other born found => ?_
  by_cases same : other = peerId
  · subst same
    rw [Function.update_self] at found
    exact inbound born found
  · rw [Function.update_of_ne same] at found
    exact inv.inbound other born found

theorem Invariant.endpointState (inv : s.Invariant) {state : EndpointState}
    (online : state = .online → s.acceptLoopRunning = true) :
    { s with endpointState := state }.Invariant :=
  ⟨inv.loops, inv.tasks, inv.known, fun _ => online, inv.inbound⟩

theorem Invariant.addPeer (inv : s.Invariant) (nodeId : String) : (s.addPeer nodeId).Invariant := by
  unfold Adapter.addPeer
  dsimp only
  split
  · exact inv
  · split
    · exact inv.peers _
    · split
      · exact inv.peers _
      · exact (inv.peers _).await_dial nodeId

theorem Invariant.addPeers (inv : s.Invariant) (peers : List String) :
    (peers.foldl Adapter.addPeer s).Invariant := by
  induction peers generalizing s with
  | nil => exact inv
  | cons peerId rest ih => exact ih (inv.addPeer peerId)

theorem Invariant.attemptReconnect (inv : s.Invariant) (peerId : String) :
    (s.attemptReconnect peerId).Invariant := by
  unfold Adapter.attemptReconnect
  split
  · exact inv
  · split
    · exact inv
    · split
      · exact inv
      · exact inv.await_dial peerId

theorem Invariant.removePeer (inv : s.Invariant) (peerId : String) :
    (s.removePeer peerId).Invariant :=
  inv.update_streams peerId nofun

theorem Invariant.initializeNode (inv : s.Invariant) (restarting : Bool) :
    (s.initializeNode restarting).Invariant :=
  have starting : { s with endpointState := .starting }.Invariant := inv.endpointState nofun
  starting.await_node (.initializing restarting) (fun _ => rfl) fun _ => rfl

theorem Invariant.stop (inv : s.Invariant) : s.stop.Invariant := by
  unfold Adapter.stop
  split
  · exact inv
  · refine ⟨inv.loops, fun task member => ⟨fun _ => rfl, fun born phase same => ?_⟩, nofun, ?_, nofun⟩
    · obtain ⟨past, -, -, waits⟩ := (inv.tasks task member).2 born phase same
      refine ⟨Nat.le_succ_of_le past, nofun, fun now => ?_, fun since waiting => ?_⟩
      · exact absurd past (by rw [now]; exact Nat.not_succ_le_self _)
      · have earlier := (waits since waiting).1
        exact ⟨Nat.le_succ_of_le earlier, fun _ => Nat.lt_succ_of_le earlier⟩
    · exact fun _ online => EndpointState.noConfusion online

theorem Invariant.disconnect (inv : s.Invariant) : s.disconnect.Invariant := by
  have halted : s.disconnect.running = false := Bool.and_false _
  refine ⟨inv.loops, fun task member => ⟨(inv.tasks task member).1, fun born phase same => ?_⟩,
    inv.known, fun running => ?_, nofun⟩
  · obtain ⟨past, -, -, waits⟩ := (inv.tasks task member).2 born phase same
    refine ⟨Nat.le_succ_of_le past, fun running => ?_, fun now => ?_, fun since waiting => ?_⟩
    · exact Bool.noConfusion (running.symm.trans halted)
    · exact absurd past (by rw [now]; exact Nat.not_succ_le_self _)
    · have earlier := (waits since waiting).1
      exact ⟨Nat.le_succ_of_le earlier, fun _ => Nat.lt_succ_of_le earlier⟩
  · exact Bool.noConfusion (running.symm.trans halted)

theorem Invariant.restart (inv : s.Invariant) (fits : s.fits .restart = true) :
    s.restart.Invariant := by
  unfold Adapter.restart
  split
  · exact inv
  · rename_i effective
    have ended : s.acceptLoopRunning = false := by
      simp [Adapter.fits] at fits effective
      simpa [effective] using fits.2
    have none : ∀ task ∈ s.tasks, task.isLoop = false := by
      have loops := inv.loops
      rw [ended] at loops
      simpa using List.countP_eq_zero.mp loops
    have starting : { s with stopped := false, endpointState := .starting }.Invariant :=
      ⟨inv.loops, fun task member => good_of_call (none task member) (inv.tasks task member).1,
        inv.known, fun _ online => EndpointState.noConfusion online, inv.inbound⟩
    exact starting.await_node (.initializing true) (fun _ => rfl) fun _ => rfl

/-! A task that goes on: what is left of the others, and what it does. -/

section
variable {i : Nat} {task : Task} (at_i : s.tasks[i]? = some task)
include at_i

theorem perm_tasks : (task :: s.tasks.eraseIdx i).Perm s.tasks := by
  obtain ⟨within, rfl⟩ := List.getElem?_eq_some_iff.mp at_i
  exact List.getElem_cons_eraseIdx_perm within

theorem countP_tasks (p : Task → Bool) :
    s.tasks.countP p = (s.tasks.eraseIdx i).countP p + (p task).toNat := by
  rw [← (perm_tasks at_i).countP_eq p, List.countP_cons]
  cases p task <;> rfl

theorem Invariant.call_over (inv : s.Invariant) (call : task.isLoop = false) :
    { s with tasks := s.tasks.eraseIdx i }.Invariant := by
  have loops := inv.loops
  rw [countP_tasks at_i, call] at loops
  exact ⟨loops, fun other member => inv.tasks other (List.mem_of_mem_eraseIdx member), inv.known,
    inv.online, inv.inbound⟩

theorem Invariant.loop_over (inv : s.Invariant) (loop : task.isLoop = true)
    (idle : s.running = true → s.endpointState ≠ .online) :
    { s with tasks := s.tasks.eraseIdx i, acceptLoopRunning := false }.Invariant := by
  have loops := inv.loops
  rw [countP_tasks at_i, loop] at loops
  have none : (s.tasks.eraseIdx i).countP Task.isLoop = 0 := by
    have most := Bool.toNat_le s.acceptLoopRunning
    rw [Bool.toNat_true] at loops
    omega
  exact ⟨none, fun other member => inv.tasks other (List.mem_of_mem_eraseIdx member), inv.known,
    fun running online => absurd online (idle running), inv.inbound⟩

theorem Invariant.loop_next (inv : s.Invariant) (loop : task.isLoop = true) {next : Task}
    (next_loop : next.isLoop = true) (good : s.Good next) :
    ({ s with tasks := s.tasks.eraseIdx i }.await next).Invariant := by
  have loops := inv.loops
  rw [countP_tasks at_i, loop] at loops
  refine ⟨?_, fun other member => ?_, inv.known, inv.online, inv.inbound⟩
  · rw [Adapter.await, List.countP_append, List.countP_singleton, next_loop]
    exact loops
  · rcases List.mem_append.mp member with member | member
    · exact inv.tasks other (List.mem_of_mem_eraseIdx member)
    · exact List.mem_singleton.mp member ▸ good

theorem Invariant.good_answer (inv : s.Invariant) (waits : task.fetching = true)
    (only : s.tasks.countP Task.fetching ≤ 1) {node : Nat} {other : Task}
    (member : other ∈ s.tasks.eraseIdx i) :
    ({ s with tasks := s.tasks.eraseIdx i, midden := some node, lastNode := some node }).Good other := by
  have unset := (inv.tasks task (List.mem_of_getElem? at_i)).1 waits
  rw [countP_tasks at_i, waits, Bool.toNat_true] at only
  have none : (s.tasks.eraseIdx i).countP Task.fetching = 0 := by omega
  obtain ⟨-, loop⟩ := inv.tasks other (List.mem_of_mem_eraseIdx member)
  refine ⟨fun also => absurd also (List.countP_eq_zero.mp none other member), fun born phase same => ?_⟩
  obtain ⟨past, current, onNode, since⟩ := loop born phase same
  refine ⟨past, current, fun now node there => ?_, since⟩
  cases unset.symm.trans (onNode now node there)

theorem Invariant.call_answered (inv : s.Invariant) (waits : task.fetching = true)
    (only : s.tasks.countP Task.fetching ≤ 1) (call : task.isLoop = false) {next : Task}
    (next_call : next.isLoop = false) (ready : next.fetching = false) (node : Nat) :
    ({ s with tasks := s.tasks.eraseIdx i, midden := some node, lastNode := some node }.await
      next).Invariant := by
  have ended := inv.call_over at_i call
  refine Invariant.await ⟨ended.loops, fun other member => inv.good_answer at_i waits only member,
    fun _ same => same, inv.online, inv.inbound⟩ next_call fun waits => ?_
  exact Bool.noConfusion (ready.symm.trans waits)

end

theorem Invariant.loop_answered (inv : s.Invariant) {i born : Nat}
    (at_i : s.tasks[i]? = some (.loop born (.starting .fetching)))
    (only : s.tasks.countP Task.fetching ≤ 1) (node : Nat) :
    ({ s with tasks := s.tasks.eraseIdx i, midden := some node, lastNode := some node }.await
      (.loop born (.starting (.ready node)))).Invariant := by
  obtain ⟨past, current, -, -⟩ := (inv.tasks _ (List.mem_of_getElem? at_i)).2 born _ rfl
  have loops := inv.loops
  rw [countP_tasks at_i] at loops
  refine ⟨?_, fun other member => ?_, fun _ same => same, inv.online, inv.inbound⟩
  · rw [Adapter.await, List.countP_append, List.countP_singleton]
    exact loops
  · rcases List.mem_append.mp member with member | member
    · exact inv.good_answer at_i rfl only member
    · rw [List.mem_singleton.mp member]
      refine ⟨nofun, fun born' phase same => ?_⟩
      cases same
      exact ⟨past, current, fun _ _ there => there, nofun⟩

theorem good_started : s.Good (.loop s.stops (.starting s.ensureMidden)) := by
  unfold ensureMidden
  split
  · rename_i unset
    refine ⟨fun _ => unset, fun born phase same => ?_⟩
    cases same
    exact ⟨Nat.le_refl _, fun _ => rfl, nofun, nofun⟩
  · rename_i node known
    refine ⟨nofun, fun born phase same => ?_⟩
    cases same
    exact ⟨Nat.le_refl _, fun _ => rfl, fun _ _ there => known.trans there, nofun⟩

theorem Invariant.startAcceptLoop (inv : s.Invariant) : s.startAcceptLoop.Invariant := by
  unfold Adapter.startAcceptLoop
  split
  · exact inv
  · rename_i idle
    have loops := inv.loops
    rw [Bool.eq_false_iff.mpr idle] at loops
    refine ⟨?_, fun other member => ?_, inv.known, fun _ _ => rfl, inv.inbound⟩
    · rw [Adapter.await, List.countP_append, List.countP_singleton, loops]
      rfl
    · rcases List.mem_append.mp member with member | member
      · exact inv.tasks other member
      · obtain rfl := List.mem_singleton.mp member
        exact good_started.congr rfl rfl rfl

theorem startAcceptLoop_running : s.startAcceptLoop.acceptLoopRunning = true := by
  unfold Adapter.startAcceptLoop
  split
  · assumption
  · rfl

theorem Invariant.initialized (inv : s.Invariant) (restarting : Bool) :
    (s.initialized restarting).Invariant := by
  have online : { s.startAcceptLoop with endpointState := .online }.Invariant :=
    inv.startAcceptLoop.endpointState fun _ => startAcceptLoop_running
  unfold Adapter.initialized
  dsimp only
  split
  · exact online.await rfl nofun
  · exact online

theorem good_waiting {born node : Nat} {phase next : Phase} (good : s.Good (.loop born phase))
    (there : phase.node = some node) (running : s.running = true) (same : next.node = some node)
    (waits : next.since = some s.stops) : s.Good (.loop born next) := by
  obtain ⟨past, current, onNode, -⟩ := good.2 born phase rfl
  refine ⟨fun fetching => ?_, fun born' phase' eq => ?_⟩
  · cases next with
    | starting wait => exact absurd waits nofun
    | accepting | pausing => exact Bool.noConfusion fetching
  · cases eq
    refine ⟨past, current, fun now other found => ?_, fun since began => ?_⟩
    · rw [← found, same]
      exact onNode now node there
    · obtain rfl := Option.some.inj (waits.symm.trans began)
      exact ⟨Nat.le_refl _, fun halted => Bool.noConfusion (running.symm.trans halted)⟩

theorem Invariant.turn (inv : s.Invariant) {i born node : Nat} {phase : Phase}
    (at_i : s.tasks[i]? = some (.loop born phase)) (there : phase.node = some node) :
    ({ s with tasks := s.tasks.eraseIdx i }.turn born node).Invariant := by
  unfold Adapter.turn
  split
  · rename_i running
    exact inv.loop_next at_i rfl rfl
      (good_waiting (inv.tasks _ (List.mem_of_getElem? at_i)) there running rfl rfl)
  · rename_i halted
    exact inv.loop_over at_i rfl fun running => absurd running halted

theorem Invariant.settle (inv : s.Invariant) {i : Nat} {outcome : Outcome}
    (fits : s.fits (.settle i outcome) = true) : (s.settle i outcome).Invariant := by
  obtain ⟨only, allowed⟩ := Bool.and_eq_true_iff.mp fits
  replace only := of_decide_eq_true only
  unfold Adapter.settle
  cases at_i : s.tasks[i]? with
  | none => exact inv
  | some task =>
    dsimp only at allowed ⊢
    rw [at_i] at allowed
    unfold Adapter.resume
    split
    · exact inv.call_answered at_i rfl only rfl rfl rfl _
    · exact (inv.call_over at_i rfl).endpointState nofun
    · exact (inv.call_over at_i rfl).initialized _
    · exact (inv.call_over at_i rfl).addPeers _
    · exact inv.call_answered at_i rfl only rfl rfl rfl _
    · exact inv.call_over at_i rfl
    · exact (inv.call_over at_i rfl).await rfl nofun
    · exact (inv.call_over at_i rfl).update_streams _ nofun
    · exact inv.call_over at_i rfl
    · exact inv.loop_answered at_i only _
    · exact inv.loop_over at_i rfl fun running => by simp [running] at allowed
    · exact inv.turn at_i rfl
    · rename_i born node since peerId sync
      cases sync with
      | false => exact inv.turn at_i rfl
      | true =>
        have current := ((inv.tasks _ (List.mem_of_getElem? at_i)).2 born _ rfl).2.1 allowed
        have taken : { s with streams := update s.streams peerId (some (.inbound born)) }.Invariant :=
          inv.update_streams peerId fun other same => by cases same; exact current
        exact taken.turn at_i rfl
    · exact inv.loop_over at_i rfl fun running => by simp [running] at allowed
    · rename_i born node since
      split
      · rename_i running
        exact inv.loop_next at_i rfl rfl
          (good_waiting (inv.tasks _ (List.mem_of_getElem? at_i)) rfl running rfl rfl)
      · rename_i halted
        exact inv.loop_over at_i rfl fun running => absurd running halted
    · exact inv.turn at_i rfl
    · exact inv

theorem Invariant.step (inv : s.Invariant) {step : Step} (fits : s.fits step = true) :
    (s.step step).Invariant := by
  cases step with
  | connect => exact inv.initializeNode false
  | identityCreated =>
    rw [Adapter.step, Adapter.identityCreated]
    split
    · exact inv.initializeNode false
    · exact inv
  | addPeer nodeId => exact inv.addPeer nodeId
  | forgetPeer nodeId => exact (inv.peers _).removePeer nodeId
  | timer peerId => exact inv.attemptReconnect peerId
  | lost peerId => exact inv.removePeer peerId
  | stop => exact inv.stop
  | restart => exact inv.restart fits
  | disconnect => exact inv.disconnect
  | settle i outcome => exact inv.settle fits

theorem exists_loop (loop : task.isLoop = true) : ∃ born phase, task = .loop born phase := by
  cases task with
  | loop born phase => exact ⟨born, phase, rfl⟩
  | _ => exact Bool.noConfusion loop

theorem Invariant.oneLoop (inv : s.Invariant) (settled : s.Settled) : s.OneLoop where
  started running online := by
    have loops := inv.loops
    rw [inv.online running online, List.countP_eq_length_filter] at loops
    obtain ⟨task, only⟩ := List.length_eq_one_iff.mp loops
    have member : task ∈ s.tasks ∧ task.isLoop = true :=
      List.mem_filter.mp (only ▸ List.mem_singleton_self task)
    obtain ⟨born, phase, rfl⟩ := exists_loop member.2
    obtain ⟨-, current, onNode, -⟩ := (inv.tasks _ member.1).2 born phase rfl
    have waits : phase.since = some s.stops := of_decide_eq_true (settled _ member.1)
    cases phase with
    | starting wait => exact absurd waits nofun
    | accepting node since | pausing node since =>
      exact ⟨born, _, node, only, rfl, inv.known node (onNode (current running) node rfl)⟩
  stopped halted := by
    refine List.filter_eq_nil_iff.mpr fun task member loop => ?_
    obtain ⟨born, phase, rfl⟩ := exists_loop loop
    obtain ⟨-, -, -, waits⟩ := (inv.tasks _ member).2 born phase rfl
    have began : phase.since = some s.stops := of_decide_eq_true (settled _ member)
    exact Nat.lt_irrefl _ ((waits _ began).2 halted)
  inbound := inv.inbound

/-- In every run whose steps fit, whatever the order of calls, timers and promises, there is one loop
once everything has settled. -/
theorem oneLoop_of_run {ops taken : List Step}
    (fits : Meets step (fun op s => s.fits op = true) ops fresh) (initial : taken <+: ops)
    (settled : (runAll step taken fresh).Settled) : (runAll step taken fresh).OneLoop := by
  have start : fresh.Invariant := ⟨rfl, nofun, nofun, nofun, nofun⟩
  have keeps : ∀ op s, s.fits op = true → s.Invariant → (step op s).Invariant :=
    fun _ _ fits inv => inv.step fits
  exact ((fits.of_prefix initial).keeps keeps start).oneLoop settled

def patientRestart : List Step :=
  [.connect, .settle 0 (.node 1), .settle 0 .done, .settle 0 .done, .addPeer "ann", .settle 1 .done,
    .settle 1 .done, .settle 0 (.stream "bob" true), .stop, .settle 0 .closed, .restart,
    .settle 0 (.node 2), .settle 0 .done, .settle 0 .done, .settle 0 .done, .settle 1 .done,
    .settle 1 .failed]

instance (s : Adapter) : Decidable s.Settled := inferInstanceAs (Decidable (∀ _ ∈ _, _))

theorem patientRestart_oneLoop : (runAll step patientRestart fresh).OneLoop :=
  oneLoop_of_run (by decide) List.prefix_rfl (by decide)

/-- A restart while the loop of the first node still waits. Its endpoint is closed only then. -/
def hastyRestart : List Step :=
  [.connect, .settle 0 (.node 1), .settle 0 .done, .settle 0 .done, .stop, .restart,
    .settle 1 (.node 2), .settle 1 .done, .settle 1 .done, .settle 0 .closed]

theorem hastyRestart_without_loop :
    (runAll step hastyRestart fresh).Settled ∧ ¬(runAll step hastyRestart fresh).OneLoop := by
  refine ⟨by decide, fun one => ?_⟩
  obtain ⟨born, phase, node, loop, -⟩ := one.started (by decide) (by decide)
  exact absurd loop nofun

end Adapter

end Tomb.Reliquary.Automerge.AcceptLoop
