import Tomb.Reliquary.Automerge.NetworkAdapter

/-! Which peers the network adapter looks after: a peer that was added and not forgotten since is
connected, scheduled for reconnection, listed as failed, or a step is in progress for it, and a peer
that was forgotten is neither connected nor scheduled, unless a call gives up on the one or a dial
brings back the other. -/
namespace Tomb.Reliquary.Automerge
open Function (update update_self update_of_ne)
open Tomb.Lib

namespace NetworkAdapter

variable {s s' t : NetworkAdapter} {p q : String}

def scheduled (s : NetworkAdapter) (p : String) : Bool :=
  match s.reconnectState p with
  | some state => state.timer
  | none => false

def inProgress (s : NetworkAdapter) (p : String) : Bool := s.calls.any (·.concerns p)

/-- The peer is connected, scheduled, listed as failed, or a step is in progress for it. -/
@[grind =] def cared (s : NetworkAdapter) (p : String) : Bool :=
  (s.streams p).isSome || s.scheduled p || p ∈ s.failedPeers || s.inProgress p

/-- Nothing about a peer has changed, but that more calls may concern it. -/
structure Apart (p : String) (s s' : NetworkAdapter) : Prop where
  intended : p ∈ s'.intendedPeers ↔ p ∈ s.intendedPeers
  failed : p ∈ s'.failedPeers ↔ p ∈ s.failedPeers
  streams : s'.streams p = s.streams p
  reconnect : s'.reconnectState p = s.reconnectState p
  stopped : s'.stopped = s.stopped
  disconnected : s'.disconnected = s.disconnected
  calls : ∀ call ∈ s.calls, call.concerns p = true → call ∈ s'.calls

theorem Apart.refl (p : String) (s : NetworkAdapter) : Apart p s s :=
  ⟨.rfl, .rfl, rfl, rfl, rfl, rfl, fun _ member _ => member⟩

theorem Apart.trans (first : Apart p s s') (second : Apart p s' t) : Apart p s t where
  intended := second.intended.trans first.intended
  failed := second.failed.trans first.failed
  streams := second.streams.trans first.streams
  reconnect := second.reconnect.trans first.reconnect
  stopped := second.stopped.trans first.stopped
  disconnected := second.disconnected.trans first.disconnected
  calls call member concerns := second.calls call (first.calls call member concerns) concerns

theorem Apart.running (apart : Apart p s s') : s'.running = s.running := by
  unfold NetworkAdapter.running
  rw [apart.stopped, apart.disconnected]

theorem Apart.cared (apart : Apart p s s') (cares : s.cared p = true) : s'.cared p = true := by
  unfold NetworkAdapter.cared scheduled at *
  simp only [Bool.or_eq_true, decide_eq_true_eq, apart.streams, apart.reconnect, apart.failed]
    at cares ⊢
  refine cares.imp_right fun progress => ?_
  obtain ⟨call, member, concerns⟩ := List.any_eq_true.mp progress
  exact List.any_eq_true.mpr ⟨call, apart.calls call member concerns, concerns⟩

theorem running_iff : s.running = true ↔ s.stopped = false ∧ s.disconnected = false := by
  unfold running
  rw [Bool.and_eq_true, Bool.not_eq_true', Bool.not_eq_true']

theorem Apart.await (p : String) (s : NetworkAdapter) (call : Call) : Apart p s (s.await call) :=
  ⟨.rfl, .rfl, rfl, rfl, rfl, rfl, fun _ member _ => List.mem_append_left _ member⟩

theorem cared_await {call : Call} (concerns : call.concerns p = true) :
    (s.await call).cared p = true := by
  have progress : (s.await call).inProgress p = true :=
    List.any_eq_true.mpr ⟨call, List.mem_append_right _ (.head _), concerns⟩
  unfold cared
  rw [progress, Bool.or_true]

theorem cared_of_stream (there : (s.streams p).isSome = true) : s.cared p = true := by
  unfold cared
  rw [there]
  rfl

theorem cared_of_failed (failed : p ∈ s.failedPeers) : s.cared p = true := by
  unfold cared
  rw [decide_eq_true failed, Bool.or_true, Bool.true_or]

section Apart

variable (differs : p ≠ q)
include differs

theorem clearReconnectState_apart : Apart p s (s.clearReconnectState q) :=
  ⟨.rfl, .rfl, rfl, update_of_ne differs _ _, rfl, rfl, fun _ member _ => member⟩

theorem mem_insert_apart {peers : List String} : p ∈ peers.insert q ↔ p ∈ peers := by
  rw [List.mem_insert_iff]
  exact or_iff_right differs

theorem mem_filter_apart {peers : List String} : p ∈ peers.filter (· ≠ q) ↔ p ∈ peers := by
  rw [List.mem_filter]
  exact and_iff_left (decide_eq_true differs)

theorem scheduleReconnect_apart : Apart p s (s.scheduleReconnect q) := by
  unfold scheduleReconnect
  split
  · exact .refl p s
  · split
    · exact .refl p s
    · dsimp only
      split
      · exact ⟨mem_filter_apart differs, mem_insert_apart differs, rfl, update_of_ne differs _ _,
          rfl, rfl, fun _ member _ => member⟩
      · exact ⟨.rfl, .rfl, rfl, update_of_ne differs _ _, rfl, rfl, fun _ member _ => member⟩

theorem removePeer_apart : Apart p s (s.removePeer q) := by
  have closed : Apart p s { s with
      streams := update s.streams q none
      readLoops := update s.readLoops q false } :=
    ⟨.rfl, .rfl, update_of_ne differs _ _, rfl, rfl, rfl, fun _ member _ => member⟩
  unfold removePeer
  dsimp only
  split
  · exact closed.trans (scheduleReconnect_apart differs)
  · exact closed

theorem endReadLoop_apart (stream : Nat) : Apart p s (s.endReadLoop q stream) := by
  unfold endReadLoop
  split
  · exact removePeer_apart differs
  · exact .refl p s

theorem registerStream_apart : Apart p s (s.registerStream q) := by
  have taken : Apart p s { s with
      streams := update s.streams q (some s.nextStream)
      nextStream := s.nextStream + 1 } :=
    ⟨.rfl, .rfl, update_of_ne differs _ _, rfl, rfl, rfl, fun _ member _ => member⟩
  have started := taken.trans (clearReconnectState_apart differs)
  unfold registerStream startReadLoop
  dsimp only
  split
  · exact ⟨started.intended, started.failed, started.streams, started.reconnect, started.stopped,
      started.disconnected, fun _ member _ => List.mem_append_left _ member⟩
  · refine Apart.trans ?_ (endReadLoop_apart differs _)
    exact ⟨started.intended, started.failed, started.streams, started.reconnect, started.stopped,
      started.disconnected, started.calls⟩

theorem addPeer_apart : Apart p s (s.addPeer q) := by
  have remembered : Apart p s (clearReconnectState { s with
      intendedPeers := s.intendedPeers.insert q
      failedPeers := s.failedPeers.filter (· ≠ q) } q) :=
    ⟨mem_insert_apart differs, mem_filter_apart differs, rfl, update_of_ne differs _ _, rfl, rfl,
      fun _ member _ => member⟩
  unfold addPeer
  split
  · exact .refl p s
  · dsimp only
    split
    · exact remembered
    · split
      · exact remembered
      · exact remembered.trans (.await _ _ _)

theorem forgetPeer_apart : Apart p s (s.forgetPeer q) := by
  have forgotten : Apart p s (clearReconnectState { s with
      intendedPeers := s.intendedPeers.filter (· ≠ q)
      failedPeers := s.failedPeers.filter (· ≠ q) } q) :=
    ⟨mem_filter_apart differs, mem_filter_apart differs, rfl, update_of_ne differs _ _, rfl, rfl,
      fun _ member _ => member⟩
  exact forgotten.trans (removePeer_apart differs)

theorem retryPeer_apart : Apart p s (s.retryPeer q) := by
  have intends : Apart p s { s with intendedPeers := s.intendedPeers.insert q } :=
    ⟨mem_insert_apart differs, .rfl, rfl, rfl, rfl, rfl, fun _ member _ => member⟩
  exact intends.trans (scheduleReconnect_apart differs)

theorem attemptReconnect_apart : Apart p s (s.attemptReconnect q) := by
  unfold attemptReconnect
  split
  · exact .refl p s
  · split
    · exact clearReconnectState_apart differs
    · split
      · exact .refl p s
      · exact ⟨.rfl, .rfl, rfl, update_of_ne differs _ _, rfl, rfl,
          fun _ member _ => List.mem_append_left _ member⟩

theorem fireTimer_apart : Apart p s (s.fireTimer q) := by
  unfold fireTimer
  split
  · rename_i attempt _
    have fired : Apart p s { s with
        reconnectState := update s.reconnectState q (some ⟨attempt, false⟩) } :=
      ⟨.rfl, .rfl, rfl, update_of_ne differs _ _, rfl, rfl, fun _ member _ => member⟩
    exact fired.trans (attemptReconnect_apart differs)
  · exact .refl p s

end Apart

/-- The adapter knows of a peer, and is meant to stay connected to it while it is stopped. -/
structure Known (p : String) (s : NetworkAdapter) : Prop where
  listed : s.disconnected = false → p ∈ s.intendedPeers ∨ p ∈ s.failedPeers
  kept : s.disconnected = false → s.stopped = true → p ∈ s.intendedPeers

structure Remembered (p : String) (s : NetworkAdapter) : Prop extends Known p s where
  cares : s.running = true → s.cared p = true

structure Forgotten (p : String) (s : NetworkAdapter) : Prop where
  unintended : p ∉ s.intendedPeers
  unlisted : p ∉ s.failedPeers
  unconnected : s.streams p = none
  unscheduled : s.reconnectState p = none

theorem Apart.known (apart : Apart p s s') (known : Known p s) : Known p s' where
  listed here := by
    rw [apart.intended, apart.failed]
    exact known.listed (apart.disconnected ▸ here)
  kept here stopped := by
    rw [apart.intended]
    exact known.kept (apart.disconnected ▸ here) (apart.stopped ▸ stopped)

theorem Apart.remembered (apart : Apart p s s') (remembered : Remembered p s) :
    Remembered p s' where
  toKnown := apart.known remembered.toKnown
  cares running := apart.cared (remembered.cares (apart.running ▸ running))

theorem Apart.forgotten (apart : Apart p s s') (forgotten : Forgotten p s) : Forgotten p s' where
  unintended := fun there => forgotten.unintended (apart.intended.mp there)
  unlisted := fun there => forgotten.unlisted (apart.failed.mp there)
  unconnected := apart.streams.trans forgotten.unconnected
  unscheduled := apart.reconnect.trans forgotten.unscheduled

theorem Known.of_intended (intends : p ∈ s.intendedPeers) : Known p s :=
  ⟨fun _ => .inl intends, fun _ _ => intends⟩

theorem Known.failed (known : Known p s) (running : s.running = true)
    (unintended : p ∉ s.intendedPeers) : p ∈ s.failedPeers := by
  obtain ⟨-, here⟩ := running_iff.mp running
  exact (known.listed here).resolve_left unintended

/-! The steps on the peer itself. -/

theorem Known.scheduleReconnect (known : Known p s) : Remembered p (s.scheduleReconnect p) := by
  unfold NetworkAdapter.scheduleReconnect
  split
  · rename_i idle
    refine ⟨known, fun running => ?_⟩
    rw [running] at idle
    cases idle
  · rename_i running
    have running : s.running = true := by simpa using running
    obtain ⟨active, here⟩ := running_iff.mp running
    split
    · rename_i connected
      exact ⟨known, fun _ => cared_of_stream connected⟩
    · dsimp only
      split
      · have failed : p ∈ s.failedPeers.insert p := List.mem_insert_self
        refine ⟨⟨fun _ => .inr failed, fun _ stopped => ?_⟩, fun _ => cared_of_failed failed⟩
        exact absurd (active.symm.trans stopped) Bool.noConfusion
      · refine ⟨⟨known.listed, known.kept⟩, fun _ => ?_⟩
        simp [cared, scheduled, update_self]

theorem Known.removePeer (known : Known p s) : Remembered p (s.removePeer p) := by
  have closed : Known p { s with
      streams := update s.streams p none
      readLoops := update s.readLoops p false } := ⟨known.listed, known.kept⟩
  unfold NetworkAdapter.removePeer
  dsimp only
  split
  · exact closed.scheduleReconnect
  · rename_i lone
    refine ⟨closed, fun running => cared_of_failed ?_⟩
    have running : s.running = true := running
    refine known.failed running fun intends => lone ?_
    rw [running, decide_eq_true intends]
    rfl

theorem Known.registerStream (known : Known p s) : Remembered p (s.registerStream p) := by
  unfold NetworkAdapter.registerStream startReadLoop
  dsimp only
  split
  · refine ⟨⟨known.listed, known.kept⟩, fun _ => cared_of_stream ?_⟩
    have there : update s.streams p (some s.nextStream) p = some s.nextStream := update_self ..
    exact congrArg Option.isSome there
  · have ended : Known p { clearReconnectState { s with
        streams := update s.streams p (some s.nextStream)
        nextStream := s.nextStream + 1 } p with readLoops := update s.readLoops p true } :=
      ⟨known.listed, known.kept⟩
    rename_i idle
    unfold NetworkAdapter.endReadLoop
    split
    · exact ended.removePeer
    · exact ⟨ended, fun running => absurd running idle⟩

theorem Remembered.endReadLoop (remembered : Remembered p s) (stream : Nat) :
    Remembered p (s.endReadLoop p stream) := by
  unfold NetworkAdapter.endReadLoop
  split
  · exact remembered.toKnown.removePeer
  · exact remembered

theorem remembered_addPeer (p : String) (s : NetworkAdapter) : Remembered p (s.addPeer p) := by
  unfold addPeer
  split
  · rename_i gone
    refine ⟨⟨fun here => ?_, fun here => ?_⟩, fun running => ?_⟩
    · exact absurd (gone.symm.trans here) Bool.noConfusion
    · exact absurd (gone.symm.trans here) Bool.noConfusion
    · exact absurd (gone.symm.trans (running_iff.mp running).2) Bool.noConfusion
  · have known : Known p (clearReconnectState { s with
        intendedPeers := s.intendedPeers.insert p
        failedPeers := s.failedPeers.filter (· ≠ p) } p) :=
      .of_intended List.mem_insert_self
    dsimp only
    split
    · rename_i stopped
      refine ⟨known, fun running => ?_⟩
      exact absurd (stopped.symm.trans (running_iff.mp running).1) Bool.noConfusion
    · split
      · rename_i connected
        exact ⟨known, fun _ => cared_of_stream connected⟩
      · exact ⟨(Apart.await _ _ _).known known, fun _ => cared_await (decide_eq_true rfl)⟩

theorem remembered_retryPeer (p : String) (s : NetworkAdapter) : Remembered p (s.retryPeer p) :=
  Known.scheduleReconnect (.of_intended List.mem_insert_self)

theorem Known.attemptReconnect (known : Known p s) : Remembered p (s.attemptReconnect p) := by
  unfold NetworkAdapter.attemptReconnect
  split
  · rename_i idle
    refine ⟨known, fun running => ?_⟩
    rw [running] at idle
    cases idle
  · split
    · rename_i connected
      exact ⟨⟨known.listed, known.kept⟩, fun _ => cared_of_stream connected⟩
    · split
      · rename_i unintended
        exact ⟨known, fun running => cared_of_failed (known.failed running unintended)⟩
      · exact ⟨⟨known.listed, known.kept⟩, fun _ => cared_await (decide_eq_true rfl)⟩

theorem Remembered.fireTimer (remembered : Remembered p s) : Remembered p (s.fireTimer p) := by
  unfold NetworkAdapter.fireTimer
  split
  · refine Known.attemptReconnect ?_
    exact ⟨remembered.listed, remembered.kept⟩
  · exact remembered

theorem forgotten_forgetPeer (p : String) (s : NetworkAdapter) : Forgotten p (s.forgetPeer p) := by
  have unintended : p ∉ s.intendedPeers.filter (· ≠ p) := fun there =>
    of_decide_eq_true (List.mem_filter.mp there).2 rfl
  have unlisted : p ∉ s.failedPeers.filter (· ≠ p) := fun there =>
    of_decide_eq_true (List.mem_filter.mp there).2 rfl
  unfold forgetPeer removePeer
  dsimp only
  split
  · rename_i intends
    rw [Bool.and_eq_true] at intends
    exact absurd (of_decide_eq_true intends.2) unintended
  · exact ⟨unintended, unlisted, update_self .., update_self ..⟩

theorem Forgotten.removePeer (forgotten : Forgotten p s) : Forgotten p (s.removePeer p) := by
  unfold NetworkAdapter.removePeer
  dsimp only
  split
  · rename_i intends
    rw [Bool.and_eq_true] at intends
    exact absurd (of_decide_eq_true intends.2) forgotten.unintended
  · exact ⟨forgotten.unintended, forgotten.unlisted, update_self .., forgotten.unscheduled⟩

theorem Forgotten.endReadLoop (forgotten : Forgotten p s) (stream : Nat) :
    Forgotten p (s.endReadLoop p stream) := by
  unfold NetworkAdapter.endReadLoop
  split
  · exact forgotten.removePeer
  · exact forgotten

theorem Forgotten.registerStream (forgotten : Forgotten p s) (idle : s.running = false) :
    Forgotten p (s.registerStream p) := by
  unfold NetworkAdapter.registerStream startReadLoop
  dsimp only
  split
  · rename_i running
    exact absurd (idle.symm.trans running) Bool.noConfusion
  · unfold NetworkAdapter.endReadLoop
    split
    · unfold NetworkAdapter.removePeer
      dsimp only
      split
      · rename_i intends
        rw [Bool.and_eq_true] at intends
        exact absurd (of_decide_eq_true intends.2) forgotten.unintended
      · exact ⟨forgotten.unintended, forgotten.unlisted, update_self .., update_self ..⟩
    · rename_i other
      have there : update s.streams p (some s.nextStream) p = some s.nextStream := update_self ..
      exact absurd there other

theorem scheduleReconnect_idle (idle : s.running = false) : s.scheduleReconnect p = s := by
  unfold scheduleReconnect
  rw [idle]
  rfl

theorem Forgotten.fireTimer (forgotten : Forgotten p s) : Forgotten p (s.fireTimer p) := by
  unfold NetworkAdapter.fireTimer
  rw [forgotten.unscheduled]
  exact forgotten

/-! The steps on all peers. -/

theorem foldl_apart {step : NetworkAdapter → String → NetworkAdapter}
    (apart : ∀ q s, p ≠ q → Apart p s (step s q)) {peers : List String} (absent : p ∉ peers) :
    Apart p s (peers.foldl step s) := by
  induction peers generalizing s with
  | nil => exact .refl p s
  | cons q rest ih =>
    have differs : p ≠ q := List.ne_of_not_mem_cons absent
    exact (apart q s differs).trans (ih (List.not_mem_of_not_mem_cons absent))

theorem foldl_remembered {step : NetworkAdapter → String → NetworkAdapter}
    (apart : ∀ q s, p ≠ q → Apart p s (step s q)) (own : ∀ s, Remembered p (step s p))
    {peers : List String} (listed : p ∈ peers) : Remembered p (peers.foldl step s) := by
  induction peers generalizing s with
  | nil => cases listed
  | cons q rest ih =>
    by_cases again : p ∈ rest
    · exact ih again
    · rcases List.mem_cons.mp listed with same | later
      · subst same
        exact (foldl_apart apart again).remembered (own s)
      · exact absurd later again

theorem Remembered.retryFailedPeers (remembered : Remembered p s) :
    Remembered p s.retryFailedPeers := by
  unfold NetworkAdapter.retryFailedPeers
  split
  · exact remembered
  · by_cases failed : p ∈ s.failedPeers
    · exact foldl_remembered (fun q s differs => retryPeer_apart differs)
        (remembered_retryPeer p) failed
    · have same : Apart p s { s with failedPeers := [] } :=
        ⟨.rfl, ⟨fun none => (nomatch none), fun there => absurd there failed⟩, rfl, rfl, rfl, rfl,
          fun _ member _ => member⟩
      have quiet := same.trans (foldl_apart (fun q s differs => retryPeer_apart differs) failed)
      exact quiet.remembered remembered

theorem Forgotten.retryFailedPeers (forgotten : Forgotten p s) : Forgotten p s.retryFailedPeers := by
  unfold NetworkAdapter.retryFailedPeers
  split
  · exact forgotten
  · have cleared : Forgotten p { s with failedPeers := [] } :=
      ⟨forgotten.unintended, fun none => (nomatch none), forgotten.unconnected,
        forgotten.unscheduled⟩
    exact (foldl_apart (fun q s differs => retryPeer_apart differs) forgotten.unlisted).forgotten
      cleared

theorem Remembered.stop (remembered : Remembered p s)
    (listed : s.running = true → p ∉ s.failedPeers) : Remembered p s.stop := by
  unfold NetworkAdapter.stop
  split
  · exact remembered
  · rename_i active
    have running : s.running = true := by
      simpa [running_iff] using active
    have intends : p ∈ s.intendedPeers :=
      (remembered.listed (running_iff.mp running).2).resolve_right (listed running)
    exact ⟨⟨fun _ => .inl intends, fun _ _ => intends⟩, fun again =>
      absurd (running_iff.mp again).1 Bool.noConfusion⟩

theorem Forgotten.stop (forgotten : Forgotten p s) : Forgotten p s.stop := by
  unfold NetworkAdapter.stop
  split
  · exact forgotten
  · exact ⟨forgotten.unintended, fun none => (nomatch none), rfl, rfl⟩

theorem Remembered.restart (remembered : Remembered p s) : Remembered p s.restart := by
  unfold NetworkAdapter.restart
  split
  · exact remembered
  · rename_i stopped
    have stopped : s.stopped = true ∧ s.disconnected = false := by simpa using stopped
    have intends := remembered.kept stopped.2 stopped.1
    exact ⟨⟨fun _ => .inl intends, fun _ _ => intends⟩, fun _ => cared_await rfl⟩

theorem Forgotten.restart (forgotten : Forgotten p s) : Forgotten p s.restart := by
  unfold NetworkAdapter.restart
  split
  · exact forgotten
  · exact ⟨forgotten.unintended, forgotten.unlisted, forgotten.unconnected,
      forgotten.unscheduled⟩

theorem remembered_disconnect (p : String) (s : NetworkAdapter) : Remembered p s.disconnect where
  listed here := nomatch here
  kept here := nomatch here
  cares running := absurd (running_iff.mp running).2 Bool.noConfusion

theorem forgotten_disconnect (p : String) (s : NetworkAdapter) : Forgotten p s.disconnect :=
  ⟨fun none => (nomatch none), fun none => (nomatch none), rfl, rfl⟩

/-! The calls that go on. -/

/-- The call ends without having taken care of the peer: a node that could not be created, or the
last dial of `addPeer`. -/
@[grind =] def givesUp (p : String) (ok : Bool) : Call → Bool
  | .addPeerNode nodeId fetching => nodeId = p && fetching && !ok
  | .addPeerDial nodeId attempt => nodeId = p && !ok && attempt ≥ maxDials
  | .restart fetching => fetching && !ok
  | _ => false

def revives (p : String) (ok : Bool) : Call → Bool
  | .addPeerDial nodeId _ => nodeId = p && ok
  | .attemptReconnectNode peerId fetching => peerId = p && fetching && !ok
  | .attemptReconnectDial peerId => peerId = p
  | _ => false

theorem resume_apart {call : Call} (other : call.concerns p = false)
    (unread : ∀ stream, call ≠ .readLoop p stream) (ok : Bool) : Apart p s (s.resume ok call) := by
  cases call with
  | addPeerNode q fetching =>
    have differs : p ≠ q := fun same => of_decide_eq_false other same.symm
    dsimp only [resume]
    split
    · exact ⟨.rfl, .rfl, rfl, rfl, rfl, rfl, fun _ member _ => List.mem_append_left _ member⟩
    · exact .refl p s
  | addPeerDial q attempt =>
    have differs : p ≠ q := fun same => of_decide_eq_false other same.symm
    dsimp only [resume]
    split
    · exact registerStream_apart differs
    · split
      · exact .await p s _
      · exact .refl p s
  | addPeerPause q attempt => exact .await p s _
  | attemptReconnectNode q fetching =>
    have differs : p ≠ q := fun same => of_decide_eq_false other same.symm
    dsimp only [resume]
    split
    · exact ⟨.rfl, .rfl, rfl, rfl, rfl, rfl, fun _ member _ => List.mem_append_left _ member⟩
    · exact scheduleReconnect_apart differs
  | attemptReconnectDial q =>
    have differs : p ≠ q := fun same => of_decide_eq_false other same.symm
    dsimp only [resume]
    split
    · exact registerStream_apart differs
    · exact scheduleReconnect_apart differs
  | restart fetching => cases other
  | readLoop q stream =>
    have differs : p ≠ q := fun same => unread stream (congrArg (Call.readLoop · stream) same.symm)
    dsimp only [resume]
    split
    · exact .await p s _
    · exact endReadLoop_apart differs stream

/-- A call that concerns a peer takes care of it, unless it gives up. -/
theorem Known.resume (known : Known p s) {call : Call} (own : call.concerns p = true) {ok : Bool}
    (goes : givesUp p ok call = false) : Remembered p (s.resume ok call) := by
  have waits (call : Call) (own : call.concerns p = true) (midden : Bool) :
      Remembered p ({ s with midden }.await call) :=
    ⟨⟨known.listed, known.kept⟩, fun _ => cared_await own⟩
  cases call with
  | addPeerNode q fetching =>
    have same : q = p := of_decide_eq_true own
    subst same
    dsimp only [NetworkAdapter.resume]
    split
    · exact waits (.addPeerDial q 1) own true
    · rename_i fails
      simp [givesUp] at goes fails
      exact absurd (goes fails.2) (by simp [fails.1])
  | addPeerDial q attempt =>
    have same : q = p := of_decide_eq_true own
    subst same
    dsimp only [NetworkAdapter.resume]
    split
    · exact known.registerStream
    · rename_i fails
      split
      · exact waits (.addPeerPause q attempt) own s.midden
      · rename_i last
        simp [givesUp, fails] at goes
        exact absurd goes last
  | addPeerPause q attempt => exact waits (.addPeerDial q (attempt + 1)) own s.midden
  | attemptReconnectNode q fetching =>
    have same : q = p := of_decide_eq_true own
    subst same
    dsimp only [NetworkAdapter.resume]
    split
    · exact waits (.attemptReconnectDial q) own true
    · exact known.scheduleReconnect
  | attemptReconnectDial q =>
    have same : q = p := of_decide_eq_true own
    subst same
    dsimp only [NetworkAdapter.resume]
    split
    · exact known.registerStream
    · exact known.scheduleReconnect
  | restart fetching =>
    dsimp only [NetworkAdapter.resume]
    split
    · have same : Known p { s with midden := true } := ⟨known.listed, known.kept⟩
      by_cases intends : p ∈ s.intendedPeers
      · exact foldl_remembered (fun q s differs => addPeer_apart differs) (remembered_addPeer p)
          intends
      · have quiet : Apart p { s with midden := true }
            (s.intendedPeers.foldl addPeer { s with midden := true }) :=
          foldl_apart (fun q s differs => addPeer_apart differs) intends
        refine ⟨quiet.known same, fun running => quiet.cared (cared_of_failed ?_)⟩
        exact known.failed (quiet.running ▸ running) intends
    · rename_i fails
      simp [givesUp] at goes fails
      exact absurd (goes fails.2) (by simp [fails.1])
  | readLoop q stream => cases own

theorem Forgotten.resume (forgotten : Forgotten p s) {call : Call} {ok : Bool}
    (dead : s.running = true → revives p ok call = false) : Forgotten p (s.resume ok call) := by
  have waits (call : Call) (midden : Bool) : Forgotten p ({ s with midden }.await call) :=
    ⟨forgotten.unintended, forgotten.unlisted, forgotten.unconnected, forgotten.unscheduled⟩
  have registers (q : String) (ok : Bool) (silent : s.running = true → (q = p && ok) = false)
      (came : ok = true) : Forgotten p (s.registerStream q) := by
    by_cases same : q = p
    · subst same
      refine forgotten.registerStream (Bool.not_eq_true _ ▸ fun running => ?_)
      have dead := silent running
      rw [came, decide_eq_true rfl] at dead
      cases dead
    · exact (registerStream_apart (Ne.symm same)).forgotten forgotten
  have schedules (q : String) (silent : s.running = true → q ≠ p) :
      Forgotten p (s.scheduleReconnect q) := by
    by_cases same : q = p
    · subst same
      rw [scheduleReconnect_idle (Bool.not_eq_true _ ▸ fun running => silent running rfl)]
      exact forgotten
    · exact (scheduleReconnect_apart (Ne.symm same)).forgotten forgotten
  cases call with
  | addPeerNode q fetching =>
    dsimp only [NetworkAdapter.resume]
    split
    · exact waits _ true
    · exact forgotten
  | addPeerDial q attempt =>
    dsimp only [NetworkAdapter.resume]
    split
    · rename_i came
      exact registers q ok dead came
    · split
      · exact waits _ s.midden
      · exact forgotten
  | addPeerPause q attempt => exact waits _ s.midden
  | attemptReconnectNode q fetching =>
    dsimp only [NetworkAdapter.resume]
    split
    · exact waits _ true
    · rename_i fails
      have fails : ok = false ∧ fetching = true := by simpa using fails
      refine schedules q fun running same => ?_
      have quiet := dead running
      simp [revives, same, fails] at quiet
  | attemptReconnectDial q =>
    have differs (running : s.running = true) : q ≠ p := of_decide_eq_false (dead running)
    dsimp only [NetworkAdapter.resume]
    split
    · rename_i came
      refine registers q ok (fun running => ?_) came
      rw [decide_eq_false (differs running)]
      rfl
    · exact schedules q differs
  | restart fetching =>
    dsimp only [NetworkAdapter.resume]
    split
    · have same : Forgotten p { s with midden := true } :=
        ⟨forgotten.unintended, forgotten.unlisted, forgotten.unconnected, forgotten.unscheduled⟩
      exact (foldl_apart (fun q s differs => addPeer_apart differs) forgotten.unintended).forgotten
        same
    · exact forgotten
  | readLoop q stream =>
    dsimp only [NetworkAdapter.resume]
    split
    · exact waits _ s.midden
    · by_cases same : q = p
      · subst same
        exact forgotten.endReadLoop stream
      · exact (endReadLoop_apart (Ne.symm same) stream).forgotten forgotten

theorem resume_givesUp {call : Call} {ok : Bool} (gives : givesUp p ok call = true) :
    s.resume ok call = s := by
  cases call with
  | addPeerNode q fetching =>
    have fails : (q = p ∧ fetching = true) ∧ ok = false := by simpa [givesUp] using gives
    dsimp only [resume]
    rw [fails.1.2, fails.2]
    rfl
  | addPeerDial q attempt =>
    have fails : (q = p ∧ ok = false) ∧ maxDials ≤ attempt := by simpa [givesUp] using gives
    dsimp only [resume]
    rw [fails.1.2, if_neg Bool.false_ne_true, if_neg (Nat.not_lt.mpr fails.2)]
  | restart fetching =>
    have fails : fetching = true ∧ ok = false := by simpa [givesUp] using gives
    dsimp only [resume]
    rw [fails.1, fails.2]
    rfl
  | addPeerPause q attempt => cases gives
  | attemptReconnectNode q fetching => cases gives
  | attemptReconnectDial q => cases gives
  | readLoop q stream => cases gives

/-- The step loses the peer: a stop drops what is listed as failed, and a call that gives up leaves
a peer that nothing else takes care of. -/
@[grind =] def loses (s : NetworkAdapter) (p : String) : Step → Bool
  | .stop => s.running && p ∈ s.failedPeers
  | .settle i ok =>
    match s.calls[i]? with
    | some call =>
      s.running && givesUp p ok call && !({ s with calls := s.calls.eraseIdx i }).cared p
    | none => false
  | _ => false

/-- The step brings the peer back: its stream comes in, or a call that was under way connects it or
schedules its reconnection. -/
@[grind =] def restores (s : NetworkAdapter) (p : String) : Step → Bool
  | .inbound peerId => s.running && peerId = p
  | .settle i ok =>
    match s.calls[i]? with
    | some call => s.running && revives p ok call
    | none => false
  | _ => false

theorem erase_apart {i : Nat} {call : Call} (here : s.calls[i]? = some call)
    (other : call.concerns p = false) : Apart p s { s with calls := s.calls.eraseIdx i } := by
  refine ⟨.rfl, .rfl, rfl, rfl, rfl, rfl, fun own member concerns => ?_⟩
  obtain ⟨j, there⟩ := List.mem_iff_getElem?.mp member
  refine List.mem_eraseIdx_iff_getElem?.mpr ⟨j, fun same => ?_, there⟩
  subst same
  rw [here] at there
  rw [Option.some.inj there, concerns] at other
  cases other

theorem Remembered.settle (remembered : Remembered p s) {i : Nat} {ok : Bool}
    (keeps : s.loses p (.settle i ok) = false) : Remembered p (s.settle i ok) := by
  unfold NetworkAdapter.settle
  dsimp only [loses] at keeps
  split
  · exact remembered
  · rename_i call here
    rw [here] at keeps
    dsimp only at keeps
    have known : Known p { s with calls := s.calls.eraseIdx i } :=
      ⟨remembered.listed, remembered.kept⟩
    cases own : call.concerns p with
    | false =>
      have without := (erase_apart here own).remembered remembered
      by_cases reads : ∃ stream, call = .readLoop p stream
      · obtain ⟨stream, rfl⟩ := reads
        dsimp only [NetworkAdapter.resume]
        split
        · exact (Apart.await p _ _).remembered without
        · exact without.endReadLoop stream
      · exact (resume_apart own (fun stream same => reads ⟨stream, same⟩) ok).remembered without
    | true =>
      cases gives : givesUp p ok call with
      | false => exact known.resume own gives
      | true =>
        rw [resume_givesUp gives]
        refine ⟨known, fun running => ?_⟩
        have running : s.running = true := running
        rw [running, gives] at keeps
        simpa using keeps

theorem Forgotten.settle (forgotten : Forgotten p s) {i : Nat} {ok : Bool}
    (dead : s.restores p (.settle i ok) = false) : Forgotten p (s.settle i ok) := by
  unfold NetworkAdapter.settle
  dsimp only [restores] at dead
  split
  · exact forgotten
  · rename_i call here
    rw [here] at dead
    have without : Forgotten p { s with calls := s.calls.eraseIdx i } :=
      ⟨forgotten.unintended, forgotten.unlisted, forgotten.unconnected, forgotten.unscheduled⟩
    refine without.resume fun running => ?_
    have running : s.running = true := running
    rw [running] at dead
    exact dead

theorem Remembered.step (remembered : Remembered p s) {op : Step} (keeps : s.loses p op = false)
    (recalls : op ≠ .forgetPeer p) : Remembered p (s.step op) := by
  cases op with
  | addPeer q =>
    by_cases same : q = p
    · exact same ▸ remembered_addPeer q s
    · exact (addPeer_apart (Ne.symm same)).remembered remembered
  | forgetPeer q =>
    have differs : p ≠ q := fun same => recalls (congrArg Step.forgetPeer same.symm)
    exact (forgetPeer_apart differs).remembered remembered
  | retryFailedPeers => exact remembered.retryFailedPeers
  | stop =>
    refine remembered.stop fun running failed => ?_
    simp [loses, running, failed] at keeps
  | restart => exact remembered.restart
  | disconnect => exact remembered_disconnect p s
  | nodeStarted => exact ⟨⟨remembered.listed, remembered.kept⟩, remembered.cares⟩
  | inbound q =>
    by_cases same : q = p
    · exact same ▸ Known.registerStream (same ▸ remembered.toKnown)
    · exact (registerStream_apart (Ne.symm same)).remembered remembered
  | writeFailed q =>
    by_cases same : q = p
    · exact same ▸ Known.removePeer (same ▸ remembered.toKnown)
    · exact (removePeer_apart (Ne.symm same)).remembered remembered
  | timer q =>
    by_cases same : q = p
    · exact same ▸ Remembered.fireTimer (same ▸ remembered)
    · exact (fireTimer_apart (Ne.symm same)).remembered remembered
  | settle i ok => exact remembered.settle keeps

theorem Forgotten.step (forgotten : Forgotten p s) {op : Step} (dead : s.restores p op = false)
    (stays : op ≠ .addPeer p) : Forgotten p (s.step op) := by
  cases op with
  | addPeer q =>
    have differs : p ≠ q := fun same => stays (congrArg Step.addPeer same.symm)
    exact (addPeer_apart differs).forgotten forgotten
  | forgetPeer q =>
    by_cases same : q = p
    · exact same ▸ forgotten_forgetPeer q s
    · exact (forgetPeer_apart (Ne.symm same)).forgotten forgotten
  | retryFailedPeers => exact forgotten.retryFailedPeers
  | stop => exact forgotten.stop
  | restart => exact forgotten.restart
  | disconnect => exact forgotten_disconnect p s
  | nodeStarted =>
    exact ⟨forgotten.unintended, forgotten.unlisted, forgotten.unconnected,
      forgotten.unscheduled⟩
  | inbound q =>
    by_cases same : q = p
    · subst same
      refine forgotten.registerStream (Bool.not_eq_true _ ▸ fun running => ?_)
      simp [restores, running] at dead
    · exact (registerStream_apart (Ne.symm same)).forgotten forgotten
  | writeFailed q =>
    by_cases same : q = p
    · exact same ▸ Forgotten.removePeer (same ▸ forgotten)
    · exact (removePeer_apart (Ne.symm same)).forgotten forgotten
  | timer q =>
    by_cases same : q = p
    · exact same ▸ Forgotten.fireTimer (same ▸ forgotten)
    · exact (fireTimer_apart (Ne.symm same)).forgotten forgotten
  | settle i ok => exact forgotten.settle dead

end NetworkAdapter

/-- An adapter, the peers that were added and not forgotten since, and those that were forgotten and
not added since. -/
structure WatchedAdapter where
  adapter : NetworkAdapter
  (remembered forgotten : List String)

namespace WatchedAdapter

def fresh : WatchedAdapter := ⟨.fresh, [], []⟩

def step (op : Step) (t : WatchedAdapter) : WatchedAdapter :=
  let adapter := t.adapter.step op
  match op with
  | .addPeer p =>
    if t.adapter.disconnected then { t with adapter }
    else ⟨adapter, t.remembered.insert p, t.forgotten.filter (· ≠ p)⟩
  | .forgetPeer p => ⟨adapter, t.remembered.filter (· ≠ p), t.forgotten.insert p⟩
  | _ => { t with adapter }

/-- The step loses no remembered peer, and brings back no forgotten one. -/
def Fits (op : Step) (t : WatchedAdapter) : Prop :=
  (∀ p ∈ t.remembered, t.adapter.loses p op = false) ∧
    ∀ p ∈ t.forgotten, t.adapter.restores p op = false

instance (op : Step) (t : WatchedAdapter) : Decidable (t.Fits op) := instDecidableAnd

/-- While the adapter runs, every remembered peer that no step is in progress for is connected,
scheduled for reconnection or listed as failed; a forgotten peer is neither connected nor
scheduled. -/
structure Maintained (t : WatchedAdapter) : Prop where
  remembered : t.adapter.running = true → ∀ p ∈ t.remembered, t.adapter.inProgress p = false →
    (t.adapter.streams p).isSome = true ∨ t.adapter.scheduled p = true ∨ p ∈ t.adapter.failedPeers
  forgotten : ∀ p ∈ t.forgotten, t.adapter.streams p = none ∧ t.adapter.reconnectState p = none

structure Invariant (t : WatchedAdapter) : Prop where
  remembered : ∀ p ∈ t.remembered, t.adapter.Remembered p
  forgotten : ∀ p ∈ t.forgotten, t.adapter.Forgotten p

theorem Invariant.maintained {t : WatchedAdapter} (inv : t.Invariant) : t.Maintained where
  remembered running p member idle := by
    have cares := (inv.remembered p member).cares running
    unfold NetworkAdapter.cared at cares
    rw [idle, Bool.or_false, Bool.or_eq_true, Bool.or_eq_true, decide_eq_true_eq, or_assoc] at cares
    exact cares
  forgotten p member := ⟨(inv.forgotten p member).unconnected, (inv.forgotten p member).unscheduled⟩

theorem Invariant.step {op : Step} {t : WatchedAdapter} (fits : t.Fits op) (inv : t.Invariant) :
    (t.step op).Invariant := by
  have keeps (p : String) (member : p ∈ t.remembered) (recalls : op ≠ .forgetPeer p) :
      (t.adapter.step op).Remembered p :=
    (inv.remembered p member).step (fits.1 p member) recalls
  have stays (p : String) (member : p ∈ t.forgotten) (apart : op ≠ .addPeer p) :
      (t.adapter.step op).Forgotten p :=
    (inv.forgotten p member).step (fits.2 p member) apart
  cases op with
  | addPeer q =>
    dsimp only [WatchedAdapter.step]
    split
    · rename_i gone
      have same : t.adapter.step (.addPeer q) = t.adapter := if_pos gone
      rw [same]
      exact ⟨inv.remembered, inv.forgotten⟩
    · refine ⟨fun p member => ?_, fun p member => ?_⟩
      · rcases List.mem_insert_iff.mp member with same | earlier
        · exact same ▸ NetworkAdapter.remembered_addPeer q t.adapter
        · exact keeps p earlier Step.noConfusion
      · obtain ⟨earlier, differs⟩ := List.mem_filter.mp member
        refine stays p earlier fun same => of_decide_eq_true differs ?_
        exact (Step.addPeer.inj same).symm
  | forgetPeer q =>
    refine ⟨fun p member => ?_, fun p member => ?_⟩
    · obtain ⟨earlier, differs⟩ := List.mem_filter.mp member
      refine keeps p earlier fun same => of_decide_eq_true differs ?_
      exact (Step.forgetPeer.inj same).symm
    · rcases List.mem_insert_iff.mp member with same | earlier
      · exact same ▸ NetworkAdapter.forgotten_forgetPeer q t.adapter
      · exact stays p earlier Step.noConfusion
  | _ => exact ⟨fun p member => keeps p member Step.noConfusion,
      fun p member => stays p member Step.noConfusion⟩

/-- In every run whose steps lose no remembered peer and bring back no forgotten one, whatever the
order of calls, dials, streams and timers, the peers are maintained in every state. -/
theorem maintained_of_run {ops taken : List Step} (fits : Meets step (fun op t => t.Fits op) ops fresh)
    (initial : taken <+: ops) : (runAll step taken fresh).Maintained := by
  have start : fresh.Invariant := ⟨fun _ none => (nomatch none), fun _ none => (nomatch none)⟩
  have inv := (fits.of_prefix initial).keeps (fun op t fits inv => Invariant.step fits inv) start
  exact inv.maintained

/-- Two peers: one whose first dial fails, whose stream ends and whose reconnection is tried across a
stop and a restart, and one that is forgotten while the adapter waits for its node. -/
def twoPeers : List Step :=
  [.addPeer "ann", .settle 0 true, .settle 0 false, .settle 0 true, .settle 0 true,
    .settle 0 false, .timer "ann", .settle 0 true, .addPeer "bob", .forgetPeer "bob",
    .settle 0 false, .stop, .restart, .settle 1 true, .inbound "ann"]

theorem twoPeers_maintained : (runAll step twoPeers fresh).Maintained :=
  maintained_of_run (by decide) List.prefix_rfl

def failedDials : List Step :=
  [.addPeer "ann", .settle 0 true, .settle 0 false, .settle 0 true, .settle 0 false,
    .settle 0 true, .settle 0 false, .settle 0 true, .settle 0 false]

/-- A peer that cannot be dialled at first is in none of the maps, and one that is forgotten during
its dial gets connected. -/
theorem failed_dial_loses_peer : ¬(runAll step failedDials fresh).Maintained ∧
    ¬(runAll step [.addPeer "bob", .settle 0 true, .forgetPeer "bob", .settle 0 true]
      fresh).Maintained := by
  refine ⟨fun maintained => ?_, fun maintained => ?_⟩
  · have lost := maintained.remembered rfl "ann" (by decide) (by decide)
    revert lost
    decide
  · have back := (maintained.forgotten "bob" (by decide)).1
    revert back
    decide

end WatchedAdapter

end Tomb.Reliquary.Automerge
