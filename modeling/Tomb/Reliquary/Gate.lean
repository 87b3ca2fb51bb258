import Mathlib.Data.List.Induction
import Mathlib.Data.List.Basic
import Mathlib.Logic.Function.Basic

/-! The blob gate: the event loop of `build_gated_blobs_events`, the handler task that each
intercepted request gets, and the tasks that track the transfers it allowed. Tasks interleave
freely with the loop, so each access to the connection map, each answer of the access gate and
each update of a transfer is a step of its own. -/
namespace Tomb.Reliquary

inductive Request where
  | get (hash : String)
  | getMany (hashes : List String)
  | observe (hash : String)
  | push (hash : String)

def Request.hashes : Request → List String
  | .get hash => [hash]
  | .getMany hashes => hashes
  | .observe hash => [hash]
  | .push hash => [hash]

inductive RequestMode where
  | disabled
  | intercept
  | interceptLog
  deriving DecidableEq

def mask (transfers : Bool) : Request → RequestMode
  | .get _ => if transfers then .interceptLog else .intercept
  | .getMany _ => if transfers then .interceptLog else .intercept
  | .observe _ => .intercept
  | .push _ => .disabled

inductive AbortReason where
  | permission

inductive EventResult where
  | ok
  | err (reason : AbortReason)

abbrev TransferKey := Nat × Nat

structure ActiveTransfer where
  (peer blake3 : String)
  (bytesSent totalSize startedAt : Nat)

structure Tracker where
  (peer blake3 : String)
  guarded : Bool

inductive Phase where
  | spawned
  | asking (peer : String) (rest : List String)
  | denied
  | responded (response : EventResult) (tracker : Option Tracker)

structure Handler where
  (connectionId requestId : Nat)
  request : Request
  phase : Phase

def Handler.key (handler : Handler) : TransferKey := (handler.connectionId, handler.requestId)

def Handler.response (handler : Handler) : Option EventResult :=
  match handler.phase with
  | .responded response _ => some response
  | _ => none

structure State where
  connections : Nat → Option String
  handlers : List Handler
  registry : TransferKey → Option ActiveTransfer

def initial : State := ⟨fun _ => none, [], fun _ => none⟩

inductive RequestUpdate where
  | started (hash : String) (size now : Nat)
  | progress (endOffset : Nat)
  | completed
  | aborted

/-- The handlers are numbered in the order of their requests; `streamEnd` is an update stream
that closes, fails or is dropped with its task. -/
inductive Action where
  | clientConnected (connectionId : Nat) (endpointId : Option String)
  | connectionClosed (connectionId : Nat)
  | request (connectionId requestId : Nat) (request : Request)
  | lookup (i : Nat)
  | allowBlob (i : Nat) (peer blake3 : String) (allow : Bool)
  | respond (i : Nat)
  | update (i : Nat) (update : RequestUpdate)
  | streamEnd (i : Nat)

namespace State

def withPhase (s : State) (i : Nat) (phase : Phase) : State :=
  { s with handlers := s.handlers.modify i fun handler => { handler with phase := phase } }

def upsert (s : State) (key : TransferKey) (transfer : ActiveTransfer) : State :=
  { s with registry := Function.update s.registry key (some transfer) }

@[grind =] def remove (s : State) (key : TransferKey) : State :=
  { s with registry := Function.update s.registry key none }

@[grind =] def dropGuard (s : State) (tracker : Tracker) (key : TransferKey) : State :=
  if tracker.guarded then s.remove key else s

/-- One received update. A second `Started` replaces the guard, and the old guard's drop takes
away the entry that was just written. -/
@[grind =] def track (s : State) (i : Nat) (handler : Handler) (tracker : Tracker) :
    RequestUpdate → State
  | .started hash size now =>
    let blake3 := if hash = "" then tracker.blake3 else hash
    ((s.upsert handler.key ⟨tracker.peer, blake3, 0, size, now⟩).dropGuard tracker
      handler.key).withPhase i (.responded .ok (some ⟨tracker.peer, blake3, true⟩))
  | .progress endOffset =>
    { s with
      registry := Function.update s.registry handler.key
        ((s.registry handler.key).map fun entry => { entry with bytesSent := endOffset }) }
  | .completed => (s.dropGuard tracker handler.key).withPhase i (.responded .ok none)
  | .aborted => (s.dropGuard tracker handler.key).withPhase i (.responded .ok none)

end State

def spawnTracker (transfers : Bool) (request : Request) (peer : String) : Option Tracker :=
  match request with
  | .get hash => if transfers then some ⟨peer, hash, false⟩ else none
  | .getMany _ => if transfers then some ⟨peer, "", false⟩ else none
  | .observe _ => none
  | .push _ => none

theorem spawnTracker_unguarded {transfers : Bool} {request : Request} {peer : String}
    {tracker : Tracker} (spawned : spawnTracker transfers request peer = some tracker) :
    tracker.guarded = false := by
  cases request <;> simp only [spawnTracker, reduceCtorEq, Option.ite_none_right_eq_some,
    Option.some.injEq] at spawned
  · rw [← spawned.2]
  · rw [← spawned.2]

def step (transfers : Bool) (s : State) : Action → Option State
  | .clientConnected connectionId endpointId =>
    match endpointId with
    | some endpointId => some { s with
        connections := Function.update s.connections connectionId (some endpointId) }
    | none => some s
  | .connectionClosed connectionId =>
    some { s with connections := Function.update s.connections connectionId none }
  | .request connectionId requestId request =>
    some { s with
      handlers := s.handlers ++ [⟨connectionId, requestId, request,
        if mask transfers request = .disabled then .responded (.err .permission) none
        else .spawned⟩] }
  | .lookup i => do
    let handler ← s.handlers[i]?
    match handler.phase with
    | .spawned => some (s.withPhase i (match s.connections handler.connectionId with
        | some peer => .asking peer handler.request.hashes
        | none => .denied))
    | _ => none
  | .allowBlob i peer blake3 allow => do
    let handler ← s.handlers[i]?
    match handler.phase with
    | .asking asker (hash :: rest) =>
      if asker = peer ∧ hash = blake3 then
        some (s.withPhase i (if allow then .asking asker rest else .denied))
      else none
    | _ => none
  | .respond i => do
    let handler ← s.handlers[i]?
    match handler.phase with
    | .asking peer [] =>
      some (s.withPhase i (.responded .ok (spawnTracker transfers handler.request peer)))
    | .denied => some (s.withPhase i (.responded (.err .permission) none))
    | _ => none
  | .update i update => do
    let handler ← s.handlers[i]?
    match handler.phase with
    | .responded .ok (some tracker) => some (s.track i handler tracker update)
    | _ => none
  | .streamEnd i => do
    let handler ← s.handlers[i]?
    match handler.phase with
    | .responded .ok (some tracker) =>
      some ((s.dropGuard tracker handler.key).withPhase i (.responded .ok none))
    | _ => none

def run (transfers : Bool) (trace : List Action) : Option State :=
  trace.foldlM (step transfers) initial

theorem run_snoc (transfers : Bool) (trace : List Action) (action : Action) :
    run transfers (trace ++ [action]) =
      (run transfers trace).bind fun s => step transfers s action := by
  simp only [run, List.foldlM_append, List.foldlM_cons, List.foldlM_nil, bind_pure]
  rfl

/-! What a trace says about a request. -/

def between (opens closes : Action → Bool) (trace : List Action) : Bool :=
  trace.foldl (fun inside action => opens action || (!closes action && inside)) false

theorem between_snoc (opens closes : Action → Bool) (trace : List Action) (action : Action) :
    between opens closes (trace ++ [action]) =
      (opens action || (!closes action && between opens closes trace)) := by
  simp only [between, List.foldl_append, List.foldl_cons, List.foldl_nil]

def Action.starts (i : Nat) : Action → Bool
  | .update j (.started _ _ _) => decide (j = i)
  | _ => false

def Action.ends (i : Nat) : Action → Bool
  | .update j .completed => decide (j = i)
  | .update j .aborted => decide (j = i)
  | .streamEnd j => decide (j = i)
  | _ => false

def serving (trace : List Action) (i : Nat) : Bool :=
  between (Action.starts i) (Action.ends i) trace

section Soundness

variable {transfers : Bool} {trace : List Action} {s s' : State} {action : Action}

/-- When handler `i` looked its connection up, the id mapped to the peer, and since then the gate
has allowed the peer each of the hashes. -/
def Asked (transfers : Bool) (trace : List Action) (i connectionId : Nat) (peer : String)
    (hashes : List String) : Prop :=
  ∃ before after s, trace = before ++ Action.lookup i :: after ∧ run transfers before = some s ∧
    s.connections connectionId = some peer ∧
    ∀ hash ∈ hashes, Action.allowBlob i peer hash true ∈ after

variable {peer : String}

theorem Asked.snoc {i connectionId : Nat} {hashes : List String}
    (asked : Asked transfers trace i connectionId peer hashes) (action : Action) :
    Asked transfers (trace ++ [action]) i connectionId peer hashes := by
  obtain ⟨before, after, s, rfl, reached, mapped, allowed⟩ := asked
  exact ⟨before, after ++ [action], s, by simp, reached, mapped, fun hash member =>
    List.mem_append_left _ (allowed hash member)⟩

theorem Asked.allow {i connectionId : Nat} {hash : String} {hashes : List String}
    (asked : Asked transfers trace i connectionId peer hashes) :
    Asked transfers (trace ++ [Action.allowBlob i peer hash true]) i connectionId peer
      (hashes ++ [hash]) := by
  obtain ⟨before, after, s, rfl, reached, mapped, allowed⟩ := asked
  refine ⟨before, after ++ [Action.allowBlob i peer hash true], s, by simp, reached, mapped, ?_⟩
  intro other member
  rcases List.mem_append.mp member with member | member
  · exact List.mem_append_left _ (allowed other member)
  · rw [List.mem_singleton.mp member]
    exact List.mem_append_right _ (List.mem_singleton_self _)

@[grind =]
def Handler.Sound (transfers : Bool) (trace : List Action) (i : Nat) (handler : Handler) : Prop :=
  match handler.phase with
  | .spawned => True
  | .asking peer rest => ∃ asked, handler.request.hashes = asked ++ rest ∧
      Asked transfers trace i handler.connectionId peer asked
  | .denied => True
  | .responded .ok tracker =>
    (∃ peer, Asked transfers trace i handler.connectionId peer handler.request.hashes) ∧
      ∀ current, tracker = some current → current.guarded = true → serving trace i = true
  | .responded (.err _) _ => True

/-- The task behind a registry entry: a tracker that has started and not ended. -/
def State.Backed (s : State) (key : TransferKey) (peer : String) (i : Nat) : Prop :=
  ∃ handler tracker, s.handlers[i]? = some handler ∧ handler.key = key ∧
    handler.phase = .responded .ok (some tracker) ∧ tracker.guarded = true ∧
    tracker.peer = peer

structure Sound (transfers : Bool) (trace : List Action) (s : State) : Prop where
  handlers : ∀ i (handler : Handler), s.handlers[i]? = some handler →
    handler.Sound transfers trace i
  pushes : ∀ handler ∈ s.handlers, ∀ hash, handler.request = .push hash →
    handler.phase = .responded (.err .permission) none
  registry : ∀ key entry, s.registry key = some entry → ∃ i, s.Backed key entry.peer i

variable {handler : Handler}

theorem Handler.Sound.snoc {i : Nat} (sound : handler.Sound transfers trace i)
    (quiet : action.ends i = false) : handler.Sound transfers (trace ++ [action]) i := by
  unfold Handler.Sound at sound ⊢
  split at sound
  · simp
  · obtain ⟨asked, split, before⟩ := sound
    exact ⟨asked, split, before.snoc action⟩
  · simp
  · obtain ⟨⟨peer, asked⟩, served⟩ := sound
    refine ⟨⟨peer, asked.snoc action⟩, fun current known guarded => ?_⟩
    rw [serving, between_snoc, quiet]
    simp only [Bool.not_false, Bool.true_and, Bool.or_eq_true]
    exact .inr (served current known guarded)
  · simp

theorem getElem?_withPhase (s : State) (i j : Nat) (phase : Phase) :
    (s.withPhase i phase).handlers[j]? =
      if i = j then (s.handlers[j]?).map fun handler : Handler => { handler with phase := phase }
      else s.handlers[j]? := by
  simp only [State.withPhase, List.getElem?_modify]
  split <;> simp

theorem State.Backed.of_handlers {key : TransferKey} {i : Nat}
    (backed : s.Backed key peer i) (same : s'.handlers[i]? = s.handlers[i]?) :
    s'.Backed key peer i := by
  obtain ⟨handler, tracker, present, facts⟩ := backed
  exact ⟨handler, tracker, same.trans present, facts⟩

theorem Sound.of_connections (sound : Sound transfers trace s) (quiet : ∀ i, action.ends i = false)
    (handlers : s'.handlers = s.handlers) (registry : s'.registry = s.registry) :
    Sound transfers (trace ++ [action]) s' where
  handlers i handler present := (sound.handlers i handler (handlers ▸ present)).snoc (quiet i)
  pushes := by rw [handlers]; exact sound.pushes
  registry key entry held := by
    obtain ⟨i, backed⟩ := sound.registry key entry (registry ▸ held)
    exact ⟨i, backed.of_handlers (by rw [handlers])⟩

/-- A step that moves handler `i` to a new phase and whatever that does to the registry. -/
theorem Sound.move (sound : Sound transfers trace s) {i : Nat} {phase : Phase}
    (present : s.handlers[i]? = some handler)
    (live : handler.phase ≠ .responded (.err .permission) none)
    (quiet : ∀ j ≠ i, action.ends j = false)
    (moved : Handler.Sound transfers (trace ++ [action]) i { handler with phase := phase })
    (same : s'.handlers = s.handlers) (registry : ∀ key entry, s'.registry key = some entry →
      ∃ j, (s'.withPhase i phase).Backed key entry.peer j) :
    Sound transfers (trace ++ [action]) (s'.withPhase i phase) where
  handlers j other found := by
    rw [getElem?_withPhase, same] at found
    split at found
    · rename_i equal
      subst equal
      rw [present, Option.map_some] at found
      exact Option.some.inj found ▸ moved
    · rename_i differs
      exact (sound.handlers j other found).snoc (quiet j (Ne.symm differs))
  pushes other member hash pushed := by
    obtain ⟨j, found⟩ := List.mem_iff_getElem?.mp member
    rw [getElem?_withPhase, same] at found
    split at found
    · rename_i equal
      subst equal
      rw [present, Option.map_some] at found
      obtain rfl := Option.some.inj found
      exact absurd (sound.pushes handler (List.mem_of_getElem? present) hash pushed) live
    · exact sound.pushes other (List.mem_of_getElem? found) hash pushed
  registry := registry

theorem State.Backed.withPhase {key : TransferKey} {i j : Nat} {phase : Phase}
    (backed : s.Backed key peer j) (other : j ≠ i) (same : s'.handlers = s.handlers) :
    (s'.withPhase i phase).Backed key peer j :=
  backed.of_handlers (by rw [getElem?_withPhase, if_neg other.symm, same])

theorem Sound.move_unanswered (sound : Sound transfers trace s) {i : Nat}
    {phase : Phase} (present : s.handlers[i]? = some handler)
    (unanswered : ∀ response tracker, handler.phase ≠ .responded response tracker)
    (quiet : ∀ j, action.ends j = false)
    (moved : Handler.Sound transfers (trace ++ [action]) i { handler with phase := phase }) :
    Sound transfers (trace ++ [action]) (s.withPhase i phase) := by
  refine sound.move present (unanswered _ _) (fun j _ => quiet j) moved rfl fun key entry held => ?_
  obtain ⟨j, backed⟩ := sound.registry key entry held
  refine ⟨j, backed.withPhase ?_ rfl⟩
  rintro rfl
  obtain ⟨found, tracker, known, -, tracking, -⟩ := backed
  obtain rfl := Option.some.inj (present.symm.trans known)
  exact unanswered _ _ tracking

theorem Sound.lookup (sound : Sound transfers trace s) (reached : run transfers trace = some s)
    {i : Nat} (present : s.handlers[i]? = some handler) (spawned : handler.phase = .spawned) :
    Sound transfers (trace ++ [Action.lookup i]) (s.withPhase i
      (match s.connections handler.connectionId with
        | some peer => .asking peer handler.request.hashes | none => .denied)) := by
  refine sound.move_unanswered present (by simp [spawned]) (fun _ => rfl) ?_
  cases mapped : s.connections handler.connectionId with
  | none => trivial
  | some peer => exact ⟨[], rfl, trace, [], s, rfl, reached, mapped, by simp⟩

theorem Sound.allowBlob (sound : Sound transfers trace s) {i : Nat}
    {hash : String} {rest : List String} (present : s.handlers[i]? = some handler)
    (asking : handler.phase = .asking peer (hash :: rest)) (allow : Bool) :
    Sound transfers (trace ++ [Action.allowBlob i peer hash allow]) (s.withPhase i
      (if allow then .asking peer rest else .denied)) := by
  refine sound.move_unanswered present (by simp [asking]) (fun _ => rfl) ?_
  have before := sound.handlers i handler present
  cases allow with
  | false => trivial
  | true =>
    unfold Handler.Sound at before
    rw [asking] at before
    obtain ⟨asked, split, since⟩ := before
    exact ⟨asked ++ [hash], by simp [split], since.allow⟩

theorem Sound.respond (sound : Sound transfers trace s) {i : Nat} (present : s.handlers[i]? = some handler)
    (asking : handler.phase = .asking peer []) :
    Sound transfers (trace ++ [Action.respond i]) (s.withPhase i
      (.responded .ok (spawnTracker transfers handler.request peer))) := by
  refine sound.move_unanswered present (by simp [asking]) (fun _ => rfl) ?_
  have before := sound.handlers i handler present
  unfold Handler.Sound at before
  rw [asking] at before
  obtain ⟨asked, split, since⟩ := before
  rw [List.append_nil] at split
  refine ⟨⟨peer, split ▸ since.snoc _⟩, fun current known guarded => ?_⟩
  rw [spawnTracker_unguarded known] at guarded
  cases guarded

variable {tracker : Tracker}

/-- The end of a transfer, however it comes: the guard takes its entry with it. -/
theorem Sound.ended (sound : Sound transfers trace s) {i : Nat} (present : s.handlers[i]? = some handler)
    (tracking : handler.phase = .responded .ok (some tracker))
    (quiet : ∀ j ≠ i, action.ends j = false) : Sound transfers (trace ++ [action])
      ((s.dropGuard tracker handler.key).withPhase i (.responded .ok none)) := by
  have same : (s.dropGuard tracker handler.key).handlers = s.handlers := by
    unfold State.dropGuard
    split <;> rfl
  refine sound.move present (by simp [tracking]) quiet ?_ same fun key entry held => ?_
  · have before := sound.handlers i handler present
    unfold Handler.Sound at before
    rw [tracking] at before
    obtain ⟨⟨peer, asked⟩, -⟩ := before
    exact ⟨⟨peer, asked.snoc action⟩, by simp⟩
  · have kept : s.registry key = some entry ∧ (tracker.guarded = true → key ≠ handler.key) := by
      unfold State.dropGuard at held
      split at held
      · by_cases own : key = handler.key
        · simp [State.remove, own] at held
        · simpa [State.remove, own] using held
      · rename_i unguarded
        exact ⟨held, fun guarded => absurd guarded unguarded⟩
    obtain ⟨j, backed⟩ := sound.registry key entry kept.1
    refine ⟨j, backed.withPhase ?_ same⟩
    rintro rfl
    obtain ⟨found, current, known, own, phase, guarded, -⟩ := backed
    obtain rfl := Option.some.inj (present.symm.trans known)
    obtain rfl : tracker = current := by simpa [tracking] using phase
    exact kept.2 guarded own.symm

theorem Sound.started (sound : Sound transfers trace s) {i : Nat} (present : s.handlers[i]? = some handler)
    (tracking : handler.phase = .responded .ok (some tracker)) (hash : String) (size now : Nat) :
    Sound transfers (trace ++ [Action.update i (.started hash size now)])
      (s.track i handler tracker (.started hash size now)) := by
  unfold State.track
  dsimp only
  generalize (if hash = "" then tracker.blake3 else hash) = blake3
  have same : ((s.upsert handler.key ⟨tracker.peer, blake3, 0, size, now⟩).dropGuard tracker
      handler.key).handlers = s.handlers := by
    unfold State.dropGuard
    split <;> rfl
  refine sound.move present (by simp [tracking]) (fun _ _ => rfl) ?_ same fun key entry held => ?_
  · have before := sound.handlers i handler present
    unfold Handler.Sound at before
    rw [tracking] at before
    obtain ⟨⟨peer, asked⟩, -⟩ := before
    refine ⟨⟨peer, asked.snoc _⟩, fun current _ _ => ?_⟩
    rw [serving, between_snoc]
    simp [Action.starts]
  · by_cases fresh : tracker.guarded = false ∧ key = handler.key
    · obtain ⟨unguarded, rfl⟩ := fresh
      obtain rfl : entry = ⟨tracker.peer, blake3, 0, size, now⟩ := by
        simpa [State.dropGuard, unguarded, State.upsert, eq_comm] using held
      refine ⟨i, { handler with phase := .responded .ok (some ⟨tracker.peer, blake3, true⟩) },
        _, ?_, rfl, rfl, rfl, rfl⟩
      rw [getElem?_withPhase, if_pos rfl, same, present, Option.map_some]
    · have old : s.registry key = some entry := by
        unfold State.dropGuard at held
        split at held
        · by_cases own : key = handler.key
          · simp [State.remove, own] at held
          · simpa [State.remove, State.upsert, own] using held
        · rename_i unguarded
          have other : key ≠ handler.key := fun own => fresh ⟨by simpa using unguarded, own⟩
          simpa [State.upsert, other] using held
      obtain ⟨j, backed⟩ := sound.registry key entry old
      by_cases own : j = i
      · subst own
        obtain ⟨found, current, known, key_eq, phase, guarded, peer_eq⟩ := backed
        obtain rfl := Option.some.inj (present.symm.trans known)
        obtain rfl : tracker = current := by simpa [tracking] using phase
        refine ⟨j, { handler with phase := .responded .ok (some ⟨tracker.peer, blake3, true⟩) },
          _, ?_, key_eq, rfl, rfl, peer_eq⟩
        rw [getElem?_withPhase, if_pos rfl, same, present, Option.map_some]
      · exact ⟨j, backed.withPhase own same⟩

theorem Sound.progress (sound : Sound transfers trace s) {i : Nat} (endOffset : Nat) :
    Sound transfers (trace ++ [Action.update i (.progress endOffset)])
      (s.track i handler tracker (.progress endOffset)) where
  handlers j other found := (sound.handlers j other found).snoc rfl
  pushes := sound.pushes
  registry key entry held := by
    have old : ∃ prior, s.registry key = some prior ∧ prior.peer = entry.peer := by
      by_cases own : key = handler.key
      · subst own
        obtain ⟨prior, known, rfl⟩ : ∃ prior, s.registry handler.key = some prior ∧
            { prior with bytesSent := endOffset } = entry := by
          simpa [State.track] using held
        exact ⟨prior, known, rfl⟩
      · exact ⟨entry, by simpa [State.track, own] using held, rfl⟩
    obtain ⟨prior, known, peer_eq⟩ := old
    obtain ⟨j, backed⟩ := sound.registry key prior known
    exact ⟨j, (peer_eq ▸ backed).of_handlers rfl⟩

theorem Sound.request (sound : Sound transfers trace s) (connectionId requestId : Nat)
    (request : Request) :
    Sound transfers (trace ++ [Action.request connectionId requestId request])
      { s with
        handlers := s.handlers ++ [⟨connectionId, requestId, request,
          if mask transfers request = .disabled then .responded (.err .permission) none
          else .spawned⟩] } where
  handlers i handler found := by
    rw [List.getElem?_append] at found
    split at found
    · exact (sound.handlers i handler found).snoc rfl
    · obtain rfl := List.mem_singleton.mp (List.mem_of_getElem? found)
      by_cases disabled : mask transfers request = .disabled <;>
        simp [Handler.Sound, disabled]
  pushes handler member hash pushed := by
    rcases List.mem_append.mp member with old | new
    · exact sound.pushes handler old hash pushed
    · obtain rfl := List.mem_singleton.mp new
      dsimp only at pushed ⊢
      rw [pushed]
      rfl
  registry key entry held := by
    obtain ⟨i, handler, tracker, present, facts⟩ := sound.registry key entry held
    have inside := (List.getElem?_eq_some_iff.mp present).1
    exact ⟨i, handler, tracker, by rw [List.getElem?_append_left inside, present], facts⟩

theorem Sound.step (sound : Sound transfers trace s) (reached : run transfers trace = some s)
    (stepped : step transfers s action = some s') : Sound transfers (trace ++ [action]) s' := by
  cases action with
  | clientConnected connectionId endpointId =>
    cases endpointId with
    | none =>
      obtain rfl := Option.some.inj stepped
      exact sound.of_connections (fun _ => rfl) rfl rfl
    | some endpointId =>
      obtain rfl := Option.some.inj stepped
      exact sound.of_connections (fun _ => rfl) rfl rfl
  | connectionClosed connectionId =>
    obtain rfl := Option.some.inj stepped
    exact sound.of_connections (fun _ => rfl) rfl rfl
  | request connectionId requestId request =>
    obtain rfl := Option.some.inj stepped
    exact sound.request connectionId requestId request
  | lookup i =>
    obtain ⟨handler, present, stepped⟩ := Option.bind_eq_some_iff.mp stepped
    split at stepped
    · rename_i spawned
      obtain rfl := Option.some.inj stepped
      exact sound.lookup reached present spawned
    · cases stepped
  | allowBlob i peer blake3 allow =>
    obtain ⟨handler, present, stepped⟩ := Option.bind_eq_some_iff.mp stepped
    split at stepped
    · rename_i asker hash rest asking
      split at stepped
      · rename_i same
        obtain rfl := Option.some.inj stepped
        obtain ⟨rfl, rfl⟩ := same
        exact sound.allowBlob present asking allow
      · cases stepped
    · cases stepped
  | respond i =>
    obtain ⟨handler, present, stepped⟩ := Option.bind_eq_some_iff.mp stepped
    split at stepped
    · rename_i peer asking
      obtain rfl := Option.some.inj stepped
      exact sound.respond present asking
    · rename_i denied
      obtain rfl := Option.some.inj stepped
      exact sound.move_unanswered present (by simp [denied]) (fun _ => rfl) trivial
    · cases stepped
  | update i update =>
    obtain ⟨handler, present, stepped⟩ := Option.bind_eq_some_iff.mp stepped
    split at stepped
    · rename_i tracker tracking
      obtain rfl := Option.some.inj stepped
      cases update with
      | started hash size now => exact sound.started present tracking hash size now
      | progress endOffset => exact sound.progress endOffset
      | completed =>
        exact sound.ended present tracking fun j other => by simp [Action.ends, other.symm]
      | aborted =>
        exact sound.ended present tracking fun j other => by simp [Action.ends, other.symm]
    · cases stepped
  | streamEnd i =>
    obtain ⟨handler, present, stepped⟩ := Option.bind_eq_some_iff.mp stepped
    split at stepped
    · rename_i tracker tracking
      obtain rfl := Option.some.inj stepped
      exact sound.ended present tracking fun j other => by simp [Action.ends, other.symm]
    · cases stepped

theorem sound_of_run (reached : run transfers trace = some s) : Sound transfers trace s := by
  induction trace using List.reverseRecOn generalizing s with
  | nil =>
    obtain rfl := Option.some.inj reached
    exact ⟨by simp [initial], by simp [initial], by simp [initial]⟩
  | append_singleton trace action ih =>
    rw [run_snoc] at reached
    obtain ⟨before, earlier, stepped⟩ := Option.bind_eq_some_iff.mp reached
    exact (ih earlier).step earlier stepped

end Soundness

/-- The request is one that the gate may let through: when its handler looked the connection id
up, the id mapped to a peer, and the gate then allowed the peer every hash of the request. -/
def Permitted (transfers : Bool) (trace : List Action) (i : Nat) (handler : Handler) : Prop :=
  ∃ peer, Asked transfers trace i handler.connectionId peer handler.request.hashes

/-- The contract of the blob gate, over every trace of its events and of its tasks' steps. A
request that is answered is refused unless it is permitted, a push always is, and a registry entry
belongs to an allowed request between its start and the end of its update stream. -/
theorem blob_gate_contract (transfers : Bool) (trace : List Action) (s : State)
    (reached : run transfers trace = some s) :
    (∀ i handler, s.handlers[i]? = some handler →
      handler.response = none ∨ handler.response = some (.err .permission) ∨
        (handler.response = some .ok ∧ Permitted transfers trace i handler)) ∧
    (∀ handler ∈ s.handlers, ∀ hash, handler.request = .push hash →
      handler.response = some (.err .permission)) ∧
    ∀ key entry, s.registry key = some entry → ∃ i handler, s.handlers[i]? = some handler ∧
      handler.key = key ∧ handler.response = some .ok ∧ serving trace i = true := by
  have sound := sound_of_run reached
  refine ⟨fun i handler present => ?_, fun handler member hash pushed => ?_,
    fun key entry held => ?_⟩
  · have holds := sound.handlers i handler present
    unfold Handler.Sound at holds
    unfold Handler.response
    split at holds <;> rename_i phase <;> simp only [phase, reduceCtorEq, false_or,
      Option.some.injEq, false_and, or_false, true_and]
    exact holds.1
  · simp only [Handler.response, sound.pushes handler member hash pushed]
  · obtain ⟨i, handler, tracker, present, own, phase, guarded, -⟩ := sound.registry key entry held
    have holds := sound.handlers i handler present
    unfold Handler.Sound at holds
    rw [phase] at holds
    exact ⟨i, handler, present, own, by simp [Handler.response, phase],
      holds.2 tracker rfl guarded⟩

def closedWhileServing : List Action :=
  [.clientConnected 7 (some "peer"), .request 7 0 (.get "hash"), .lookup 0,
    .allowBlob 0 "peer" "hash" true, .respond 0, .update 0 (.started "hash" 10 0),
    .connectionClosed 7]

theorem blob_gate_contract_closed : ∃ s, run true closedWhileServing = some s ∧
    ∃ i handler, s.handlers[i]? = some handler ∧ handler.key = (7, 0) ∧
      handler.response = some .ok ∧ serving closedWhileServing i = true :=
  ⟨_, rfl, (blob_gate_contract true closedWhileServing _ rfl).2.2 (7, 0) _ rfl⟩

/-- The connection's own lifetime bounds neither the answer nor the entry: a request whose
connection closes after the lookup is still allowed, and the entry of a transfer stays when its
connection closes. -/
theorem closed_connection_is_served :
    (∃ s s', run true [.clientConnected 7 (some "peer"), .request 7 0 (.get "hash"), .lookup 0,
        .allowBlob 0 "peer" "hash" true, .connectionClosed 7] = some s ∧
      s.connections 7 = none ∧ step true s (.respond 0) = some s' ∧
      (s'.handlers[0]?).bind Handler.response = some .ok) ∧
    ∃ s, run true closedWhileServing = some s ∧ s.connections 7 = none ∧
      (s.registry (7, 0)).isSome = true :=
  ⟨⟨_, _, rfl, rfl, rfl, rfl⟩, _, rfl, rfl, rfl⟩

end Tomb.Reliquary

