import Mathlib.Data.List.Basic
import Mathlib.Logic.Function.Basic
import Tomb.Lib.Runs

/-! The controllers that a player lists as connected. Both players mark a node as connected whenever it
opens a stream and as disconnected whenever one of its streams ends. -/
namespace Tomb.Grimoire.Cenotaph.ConnectedControllers
open Function (update update_self update_of_ne)
open Tomb.Lib

structure ConnectedControllerInfo where
  (nodeId displayName : String)

inductive StreamKind where
  | subscribe | command
  deriving DecidableEq

structure Stream where
  peerId : String
  kind : StreamKind
  deriving DecidableEq

def holds (streams : List Stream) (nodeId : String) : Bool := streams.any (·.peerId = nodeId)

theorem holds_iff {streams : List Stream} {nodeId : String} :
    holds streams nodeId = true ↔ ∃ stream ∈ streams, stream.peerId = nodeId := by
  simp [holds]

theorem holds_cons (stream : Stream) (streams : List Stream) (nodeId : String) :
    holds (stream :: streams) nodeId = (stream.peerId = nodeId || holds streams nodeId : Bool) := rfl

theorem holds_erase {streams : List Stream} {stream : Stream} {nodeId : String}
    (other : stream.peerId ≠ nodeId) : holds (streams.erase stream) nodeId = holds streams nodeId := by
  rw [Bool.eq_iff_iff, holds_iff, holds_iff]
  constructor
  · rintro ⟨own, member, rfl⟩
    exact ⟨own, List.mem_of_mem_erase member, rfl⟩
  · rintro ⟨own, member, rfl⟩
    have differs : own ≠ stream := fun same => other (congrArg Stream.peerId same.symm)
    exact ⟨own, (List.mem_erase_of_ne differs).mpr member, rfl⟩

/-! The native player. -/

structure Player where
  connected : List ConnectedControllerInfo
  streams : List Stream

inductive Op where
  | handleStream (info : ConnectedControllerInfo) (kind : StreamKind)
  | close (stream : Stream)

namespace Player

def fresh : Player := ⟨[], []⟩

def markConnected (info : ConnectedControllerInfo) (connected : List ConnectedControllerInfo) :
    List ConnectedControllerInfo :=
  connected.filter (·.nodeId ≠ info.nodeId) ++ [info]

def markDisconnected (nodeId : String) (connected : List ConnectedControllerInfo) :
    List ConnectedControllerInfo :=
  connected.filter (·.nodeId ≠ nodeId)

def step : Op → Player → Player
  | .handleStream info kind, s =>
    ⟨markConnected info s.connected, ⟨info.nodeId, kind⟩ :: s.streams⟩
  | .close stream, s =>
    if stream ∈ s.streams then
      ⟨markDisconnected stream.peerId s.connected, s.streams.erase stream⟩
    else s

/-- A node is listed once if it has a stream open, and not at all if it has none. -/
def Exact (s : Player) : Prop :=
  ∀ nodeId, s.connected.countP (·.nodeId = nodeId) = if holds s.streams nodeId then 1 else 0

def fits (s : Player) : Op → Bool
  | .handleStream .. => true
  | .close stream => !holds (s.streams.erase stream) stream.peerId

variable {s : Player}

theorem count_filter_ne (connected : List ConnectedControllerInfo) (nodeId other : String) :
    (connected.filter (·.nodeId ≠ nodeId)).countP (·.nodeId = other) =
      if other = nodeId then 0 else connected.countP (·.nodeId = other) := by
  rw [List.countP_filter]
  split
  · rename_i same
    subst same
    exact List.countP_eq_zero.mpr fun info _ => by simp
  · rename_i differs
    refine List.countP_congr fun info _ => ?_
    simp only [Bool.and_eq_true, decide_eq_true_eq]
    exact ⟨fun both => both.1, fun same => ⟨same, fun here => differs (same.symm.trans here)⟩⟩

theorem Exact.step (exact_ : s.Exact) {op : Op} (fits : s.fits op = true) : (step op s).Exact := by
  intro nodeId
  cases op with
  | handleStream info kind =>
    have before := exact_ nodeId
    simp only [Player.step, markConnected, List.countP_append, count_filter_ne, holds_cons,
      List.countP_singleton, decide_eq_true_eq]
    by_cases own : nodeId = info.nodeId
    · simp [own]
    · have other : info.nodeId ≠ nodeId := fun same => own same.symm
      simp [own, other, before]
  | close stream =>
    simp only [Player.step]
    split
    · simp only [markDisconnected, count_filter_ne]
      split
      · rename_i own
        rw [own, (Bool.not_eq_true' _).mp fits]
        rfl
      · rename_i other
        rw [holds_erase fun same => other same.symm]
        exact exact_ nodeId
    · exact exact_ nodeId

end Player

/-! The browser player. It takes a node off the list when a grace period is over. -/

def disconnectGraceMs : Nat := 45000

structure Browser where
  connected : List ConnectedControllerInfo
  streams : List Stream
  /-- When the timer of a node runs out. -/
  pendingRemovals : String → Option Nat
  now : Nat
  /-- When a stream of a node ended last. -/
  closedAt : String → Option Nat

inductive BrowserOp where
  | opened (info : ConnectedControllerInfo) (kind : StreamKind)
  | closed (stream : Stream)
  | elapse (ms : Nat)

namespace Browser

def fresh : Browser := ⟨[], [], fun _ => none, 0, fun _ => none⟩

variable (s : Browser)

@[grind =] def lists (nodeId : String) : Bool := s.connected.any (·.nodeId = nodeId)

def markControllerConnected (controller : ConnectedControllerInfo) : Browser :=
  { s with
    pendingRemovals := update s.pendingRemovals controller.nodeId none
    connected := if s.lists controller.nodeId then s.connected else s.connected ++ [controller] }

def markControllerDisconnected (nodeId : String) : Browser :=
  match s.pendingRemovals nodeId with
  | some _ => s
  | none =>
    let timeout := s.now + disconnectGraceMs
    { s with pendingRemovals := update s.pendingRemovals nodeId (some timeout) }

def due (now : Nat) (nodeId : String) : Bool := (s.pendingRemovals nodeId).any (· ≤ now)

def elapse (now : Nat) : Browser :=
  { s with
    now
    connected := s.connected.filter fun c => !s.due now c.nodeId
    pendingRemovals := fun nodeId => (s.pendingRemovals nodeId).filter fun timeout => now < timeout }

@[grind =] def step : BrowserOp → Browser → Browser
  | .opened info kind, s =>
    { s.markControllerConnected info with streams := ⟨info.nodeId, kind⟩ :: s.streams }
  | .closed stream, s =>
    if stream ∈ s.streams then
      { s.markControllerDisconnected stream.peerId with
        streams := s.streams.erase stream
        closedAt := update s.closedAt stream.peerId (some s.now) }
    else s
  | .elapse ms, s => s.elapse (s.now + ms)

def Listed : Prop := ∀ nodeId, holds s.streams nodeId = true → s.lists nodeId = true

/-- A node without one is not listed any more when the grace period is over, nor if it has never had
any. -/
def Unlisted : Prop := ∀ nodeId, holds s.streams nodeId = false →
  (∀ time ∈ s.closedAt nodeId, time + disconnectGraceMs ≤ s.now) → s.lists nodeId = false

def fits (s : Browser) : BrowserOp → Bool
  | .elapse ms => s.streams.all fun stream => !s.due (s.now + ms) stream.peerId
  | _ => true

variable {s}

/-- The timer of a listed node without streams runs, and runs out in time. -/
structure Timed (s : Browser) (nodeId : String) : Prop where
  timer : s.lists nodeId = true → holds s.streams nodeId = false →
    ∃ timeout, s.pendingRemovals nodeId = some timeout ∧ s.now < timeout ∧
      ∃ time, s.closedAt nodeId = some time ∧ timeout ≤ time + disconnectGraceMs
  ahead : ∀ timeout ∈ s.pendingRemovals nodeId, s.now < timeout ∧
    timeout ≤ s.now + disconnectGraceMs

theorem lists_markControllerConnected (controller : ConnectedControllerInfo) (nodeId : String) :
    (s.markControllerConnected controller).lists nodeId =
      (controller.nodeId = nodeId || s.lists nodeId : Bool) := by
  unfold markControllerConnected
  cases there : s.lists controller.nodeId with
  | true =>
    by_cases own : controller.nodeId = nodeId
    · subst own
      rw [there, Bool.or_true]
      exact there
    · rw [decide_eq_false own, Bool.false_or]
      rfl
  | false =>
    simp only [Bool.false_eq_true, if_false, lists, List.any_append, List.any_cons, List.any_nil,
      Bool.or_false]
    exact Bool.or_comm ..

theorem lists_markControllerDisconnected (closing nodeId : String) :
    (s.markControllerDisconnected closing).lists nodeId = s.lists nodeId := by
  unfold markControllerDisconnected
  split <;> rfl

theorem lists_elapse (now : Nat) (nodeId : String) :
    (s.elapse now).lists nodeId = (s.lists nodeId && !s.due now nodeId) := by
  rw [Bool.eq_iff_iff, Bool.and_eq_true]
  simp only [elapse, lists, List.any_eq_true, List.mem_filter, decide_eq_true_eq]
  constructor
  · rintro ⟨c, ⟨member, waits⟩, rfl⟩
    exact ⟨⟨c, member, rfl⟩, waits⟩
  · rintro ⟨⟨c, member, rfl⟩, waits⟩
    exact ⟨c, ⟨member, waits⟩, rfl⟩

variable {nodeId : String}

theorem pending_markControllerDisconnected (timed : s.Timed nodeId) :
    ∃ timeout, (s.markControllerDisconnected nodeId).pendingRemovals nodeId = some timeout ∧
      s.now < timeout ∧ timeout ≤ s.now + disconnectGraceMs := by
  unfold markControllerDisconnected
  split
  · rename_i timeout running
    exact ⟨timeout, running, timed.ahead timeout running⟩
  · exact ⟨_, update_self .., Nat.lt_add_of_pos_right (by decide), Nat.le_refl _⟩

theorem pending_other {closing : String} (other : nodeId ≠ closing) :
    (s.markControllerDisconnected closing).pendingRemovals nodeId = s.pendingRemovals nodeId := by
  unfold markControllerDisconnected
  split
  · rfl
  · exact update_of_ne other ..

theorem now_markControllerDisconnected (closing : String) :
    (s.markControllerDisconnected closing).now = s.now := by
  unfold markControllerDisconnected
  split <;> rfl

theorem Timed.opened (timed : s.Timed nodeId) (info : ConnectedControllerInfo)
    (kind : StreamKind) : (step (.opened info kind) s).Timed nodeId := by
  by_cases own : info.nodeId = nodeId
  · constructor
    · intro _ none
      simp [step, holds_cons, own] at none
    · intro timeout running
      simp [step, markControllerConnected, own] at running
  · have lists : (step (.opened info kind) s).lists nodeId = s.lists nodeId := by
      refine (lists_markControllerConnected info nodeId).trans ?_
      rw [decide_eq_false own, Bool.false_or]
    have holds : holds (step (.opened info kind) s).streams nodeId = holds s.streams nodeId := by
      refine (holds_cons ..).trans ?_
      rw [decide_eq_false own, Bool.false_or]
    have pending : (step (.opened info kind) s).pendingRemovals nodeId = s.pendingRemovals nodeId :=
      update_of_ne (fun same => own same.symm) ..
    constructor
    · rw [lists, holds, pending]
      exact timed.timer
    · rw [pending]
      exact timed.ahead

theorem Timed.closed (timed : s.Timed nodeId) (stream : Stream) :
    (step (.closed stream) s).Timed nodeId := by
  simp only [step]
  split
  · by_cases own : nodeId = stream.peerId
    · subst own
      obtain ⟨timeout, running, later, soon⟩ := pending_markControllerDisconnected timed
      constructor
      · intro _ _
        refine ⟨timeout, running, ?_, s.now, update_self .., soon⟩
        rw [now_markControllerDisconnected]
        exact later
      · intro other same
        obtain rfl : timeout = other := Option.some.inj (running.symm.trans same)
        rw [now_markControllerDisconnected]
        exact ⟨later, soon⟩
    · constructor
      · intro listed none
        dsimp only at none ⊢
        rw [holds_erase fun same => own same.symm] at none
        rw [pending_other own, update_of_ne own, now_markControllerDisconnected]
        exact timed.timer ((lists_markControllerDisconnected ..).symm.trans listed) none
      · dsimp only
        rw [pending_other own, now_markControllerDisconnected]
        exact timed.ahead
  · exact timed

theorem Timed.elapse (timed : s.Timed nodeId) (ms : Nat) : (step (.elapse ms) s).Timed nodeId := by
  constructor
  · intro listed none
    obtain ⟨listed, waits⟩ := Bool.and_eq_true_iff.mp ((lists_elapse ..).symm.trans listed)
    obtain ⟨timeout, running, -, time, closed, soon⟩ := timed.timer listed none
    have later : s.now + ms < timeout := by
      simpa [due, running] using waits
    exact ⟨timeout, by simp [step, Browser.elapse, running, later], later, time, closed, soon⟩
  · intro timeout running
    simp only [step, Browser.elapse] at running ⊢
    obtain ⟨there, later⟩ := Option.mem_filter_iff.mp running
    have soon := (timed.ahead timeout there).2
    exact ⟨of_decide_eq_true later, by omega⟩

theorem Timed.unlisted (timed : ∀ nodeId, s.Timed nodeId) : s.Unlisted := by
  intro nodeId none passed
  by_contra listed
  obtain ⟨timeout, -, later, time, closed, soon⟩ :=
    (timed nodeId).timer ((Bool.not_eq_false _).mp listed) none
  have soon' := passed time closed
  omega

theorem Listed.step (listed : s.Listed) {op : BrowserOp} (fits : s.fits op = true) :
    (step op s).Listed := by
  intro nodeId open_
  cases op with
  | opened info kind =>
    refine (lists_markControllerConnected info nodeId).trans ((Bool.or_eq_true ..).mpr ?_)
    have open_ := (holds_cons ..).symm.trans open_
    exact ((Bool.or_eq_true ..).mp open_).imp_right (listed nodeId)
  | closed stream =>
    simp only [Browser.step] at open_ ⊢
    split at open_
    · rename_i member
      rw [if_pos member]
      obtain ⟨own, there, rfl⟩ := holds_iff.mp open_
      refine (lists_markControllerDisconnected ..).trans (listed _ (holds_iff.mpr ⟨own, ?_, rfl⟩))
      exact List.mem_of_mem_erase there
    · rename_i absent
      rw [if_neg absent]
      exact listed nodeId open_
  | elapse ms =>
    obtain ⟨own, there, rfl⟩ := holds_iff.mp open_
    refine (lists_elapse ..).trans ((Bool.and_eq_true ..).mpr ⟨?_, ?_⟩)
    · exact listed _ (holds_iff.mpr ⟨own, there, rfl⟩)
    · exact List.all_eq_true.mp fits own there

/-- Whatever streams are opened and closed, a node without one is unlisted in time. -/
theorem unlisted_of_run (ops : List BrowserOp) : (runAll step ops fresh).Unlisted := by
  have start : ∀ nodeId, fresh.Timed nodeId := fun nodeId => ⟨nofun, nofun⟩
  have keeps : ∀ op s, (∀ nodeId, Timed s nodeId) → ∀ nodeId, (step op s).Timed nodeId := by
    intro op s timed nodeId
    cases op with
    | opened info kind => exact (timed nodeId).opened info kind
    | closed stream => exact (timed nodeId).closed stream
    | elapse ms => exact (timed nodeId).elapse ms
  exact Timed.unlisted (runAll_keeps keeps ops start)

end Browser

/-- In every run in which no stream ends beside another one of its node, the native player's list is
exact. In every run in which no timer runs out beside an open stream of its node, so is the browser
player's. -/
theorem exact_of_runs {ops taken : List Op} {browserOps browserTaken : List BrowserOp}
    (fits : Meets Player.step (fun op s => s.fits op = true) ops .fresh)
    (browserFits : Meets Browser.step (fun op s => s.fits op = true) browserOps .fresh)
    (initial : taken <+: ops) (browserInitial : browserTaken <+: browserOps) :
    (runAll Player.step taken .fresh).Exact ∧
      (runAll Browser.step browserTaken .fresh).Listed ∧
      (runAll Browser.step browserTaken .fresh).Unlisted := by
  refine ⟨?_, ?_, Browser.unlisted_of_run browserTaken⟩
  · have keeps : ∀ op (s : Player), s.fits op = true → s.Exact → (Player.step op s).Exact :=
      fun _ _ fits exact_ => exact_.step fits
    exact (fits.of_prefix initial).keeps keeps fun _ => rfl
  · have keeps : ∀ op (s : Browser), s.fits op = true → s.Listed → (Browser.step op s).Listed :=
      fun _ _ fits listed => listed.step fits
    exact (browserFits.of_prefix browserInitial).keeps keeps nofun

def tv : ConnectedControllerInfo := ⟨"a1", "tv remote"⟩

/-- A subscription that ends before the next stream, and one that is taken up again in time. -/
theorem one_at_a_time :
    (runAll Player.step [.handleStream tv .subscribe, .close ⟨"a1", .subscribe⟩,
      .handleStream tv .command] .fresh).Exact ∧
      (runAll Browser.step [.opened tv .subscribe, .closed ⟨"a1", .subscribe⟩, .elapse 30000,
        .opened tv .command, .elapse 30000] .fresh).Listed ∧
      (runAll Browser.step [.opened tv .subscribe, .closed ⟨"a1", .subscribe⟩, .elapse 30000,
        .opened tv .command, .elapse 30000] .fresh).Unlisted :=
  exact_of_runs (by decide) (by decide) List.prefix_rfl List.prefix_rfl

/-- A command stream that ends beside a subscription. -/
theorem subscriber_is_dropped :
    ¬(runAll Player.step [.handleStream tv .subscribe, .handleStream tv .command,
      .close ⟨"a1", .command⟩] .fresh).Exact ∧
    ¬(runAll Browser.step [.opened tv .subscribe, .opened tv .command, .closed ⟨"a1", .command⟩,
      .elapse 45000] .fresh).Listed := by
  constructor
  · intro exact_
    exact absurd (exact_ "a1") (by decide)
  · intro listed
    exact absurd (listed "a1" (by decide)) (by decide)

end Tomb.Grimoire.Cenotaph.ConnectedControllers
