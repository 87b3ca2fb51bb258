import Mathlib.Data.List.Chain
import Tomb.Haruspex.Protocol.Service

/-! Runs of the presence engine: the events of one node as a two-valued signal, what one call
does to that signal, and when the signal alternates. -/
namespace Tomb.Haruspex.Protocol

variable {J : Type}

/-- One call on the service; the transport decides their order and their clock readings. -/
inductive Call (J : Type) where
  | dispatch (caller : Caller) (message : FriendzMessage J)
  | sweepTimeouts
  | setLocalUsername (username : String)
  | setLocalProfile (profile : LocalProfile)
  | setLocalCapabilities (capabilities : Capabilities)

namespace FriendzService

def step (service : FriendzService J) : Instant × Call J → FriendzService J
  | (now, .dispatch caller message) => (service.dispatch now caller message).2
  | (now, .sweepTimeouts) => (service.sweepTimeouts now).2
  | (_, .setLocalUsername username) => service.setLocalUsername username
  | (_, .setLocalProfile profile) => service.setLocalProfile profile
  | (_, .setLocalCapabilities capabilities) => service.setLocalCapabilities capabilities

def run (service : FriendzService J) (calls : List (Instant × Call J)) : FriendzService J :=
  calls.foldl step service

theorem run_snoc (service : FriendzService J) (calls : List (Instant × Call J))
    (call : Instant × Call J) :
    service.run (calls ++ [call]) = (service.run calls).step call := by
  simp only [run, List.foldl_append, List.foldl_cons, List.foldl_nil]

end FriendzService

/-- A coming-online event of the node is a rising edge, a going-offline event a falling one. -/
@[grind =] def edgeOf (node : String) : FriendzEvent J → Option Bool
  | .peerOnline nodeId _ => if nodeId = node then some true else none
  | .peerOffline nodeId => if nodeId = node then some false else none
  | .messageReceived _ _ => none

@[grind =] def edges (node : String) (events : List (FriendzEvent J)) : List Bool :=
  events.filterMap (edgeOf node)

/-- The edges alternate strictly and the first of them rises. -/
def Alternating (signal : List Bool) : Prop := (false :: signal).IsChain (· ≠ ·)

instance (signal : List Bool) : Decidable (Alternating signal) :=
  inferInstanceAs (Decidable (List.IsChain _ _))

theorem alternating_snoc (signal : List Bool) (edge : Bool) :
    Alternating (signal ++ [edge]) ↔ Alternating signal ∧ edge ≠ signal.getLast?.getD false := by
  unfold Alternating
  rw [← List.cons_append, List.isChain_append]
  have last : (false :: signal).getLast? = some (signal.getLast?.getD false) := by
    cases signal with
    | nil => rfl
    | cons first rest => simp [List.getLast?_eq_getLast_of_ne_nil]
  simp [last, eq_comm]

def announcesPresence : FriendzMessage J → Bool
  | .core (.hello ..) => true
  | .core (.heartbeat ..) => true
  | _ => false

/-- The call is a heartbeat or hello of the node, and the node's last-seen entry is still there
although it has timed out: no sweep has run since it did. -/
def LateArrival (service : FriendzService J) (node : String) : Instant × Call J → Prop
  | (now, .dispatch caller message) =>
    caller.nodeId = node ∧ announcesPresence message = true ∧
      ∃ seen, service.lastSeen.lookup node = some seen ∧
        fromMillis heartbeatTimeoutMs ≤ now - seen
  | _ => False

/-- Everything that one call can do to the events and to the entry of one node. -/
inductive Effect (service next : FriendzService J) (node : String) (late : Prop) : Prop where
  | quiet (same : edges node next.events = edges node service.events)
      (kept : node ∈ next.lastSeen ↔ node ∈ service.lastSeen) (timely : ¬ late)
  | rise (new : edges node next.events = edges node service.events ++ [true])
      (absent : node ∉ service.lastSeen) (entered : node ∈ next.lastSeen) (timely : ¬ late)
  | relapse (new : edges node next.events = edges node service.events ++ [true])
      (present : node ∈ service.lastSeen) (kept : node ∈ next.lastSeen) (missed : late)
  | fall (new : edges node next.events = edges node service.events ++ [false])
      (present : node ∈ service.lastSeen) (left : node ∉ next.lastSeen) (timely : ¬ late)

namespace FriendzService

theorem isOnline_iff (service : FriendzService J) (now : Instant) (node : String) :
    service.isOnline now node = true ↔ ∃ seen, service.lastSeen.lookup node = some seen ∧
      ¬ fromMillis heartbeatTimeoutMs ≤ now - seen := by
  simp only [fromMillis_le_iff, not_not, isOnline]
  cases service.lastSeen.lookup node with
  | none => simp
  | some seen => simp

theorem mem_timedOut (service : FriendzService J) (now : Instant) (node : String) :
    node ∈ service.timedOut now ↔ ∃ seen, service.lastSeen.lookup node = some seen ∧
      fromMillis heartbeatTimeoutMs ≤ now - seen := by
  simp only [timedOut, List.mem_map, List.mem_filter, decide_eq_true_eq]
  constructor
  · rintro ⟨⟨_, seen⟩, ⟨entry, old⟩, rfl⟩
    exact ⟨seen, AList.mem_lookup_iff.mpr entry, old⟩
  · rintro ⟨seen, found, old⟩
    exact ⟨⟨node, seen⟩, ⟨AList.mem_lookup_iff.mp found, old⟩, rfl⟩

theorem mem_onlinePeers (service : FriendzService J) (now : Instant) (node : String) :
    node ∈ service.onlinePeers now ↔ service.isOnline now node = true := by
  rw [isOnline_iff]
  simp only [fromMillis_le_iff, not_not, onlinePeers, List.mem_map, List.mem_filter,
    decide_eq_true_eq]
  constructor
  · rintro ⟨⟨_, seen⟩, ⟨entry, recent⟩, rfl⟩
    exact ⟨seen, AList.mem_lookup_iff.mpr entry, recent⟩
  · rintro ⟨seen, found, recent⟩
    exact ⟨⟨node, seen⟩, ⟨AList.mem_lookup_iff.mp found, recent⟩, rfl⟩

theorem timedOut_nodup (service : FriendzService J) (now : Instant) :
    (service.timedOut now).Nodup :=
  service.lastSeen.keys_nodup.sublist (List.filter_sublist.map _)

theorem foldl_goOffline (ids : List String) (distinct : ids.Nodup) (service : FriendzService J)
    (node : String) :
    (ids.foldl goOffline service).lastSeen.lookup node =
        (if node ∈ ids then none else service.lastSeen.lookup node) ∧
      edges node (ids.foldl goOffline service).events =
        edges node service.events ++ (if node ∈ ids then [false] else []) := by
  induction ids generalizing service with
  | nil => simp
  | cons id rest ih =>
    obtain ⟨fresh, distinct⟩ := List.nodup_cons.mp distinct
    obtain ⟨entry, signal⟩ := ih distinct (service.goOffline id)
    rw [List.foldl_cons, entry, signal]
    by_cases here : node = id
    · subst here
      simp [fresh, goOffline, send, edges, edgeOf]
    · have other : id ≠ node := fun same => here same.symm
      simp [here, other, goOffline, send, edges, edgeOf]

theorem sweep_lookup (service : FriendzService J) (now : Instant) (node : String) :
    (service.sweepTimeouts now).2.lastSeen.lookup node =
      if node ∈ service.timedOut now then none else service.lastSeen.lookup node :=
  (foldl_goOffline _ (service.timedOut_nodup now) service node).1

theorem sweep_edges (service : FriendzService J) (now : Instant) (node : String) :
    edges node (service.sweepTimeouts now).2.events =
      edges node service.events ++ if node ∈ service.timedOut now then [false] else [] :=
  (foldl_goOffline _ (service.timedOut_nodup now) service node).2

theorem sweep_effect (service : FriendzService J) (now : Instant) (node : String) :
    Effect service (service.sweepTimeouts now).2 node False := by
  have entry := service.sweep_lookup now node
  have signal := service.sweep_edges now node
  by_cases out : node ∈ service.timedOut now
  · rw [if_pos out] at entry signal
    obtain ⟨seen, found, _⟩ := (service.mem_timedOut now node).mp out
    exact .fall signal (AList.lookup_isSome.mp (by simp [found])) (AList.lookup_eq_none.mp entry)
      not_false
  · rw [if_neg out] at entry signal
    refine .quiet (by simpa using signal) ?_ not_false
    rw [← AList.lookup_isSome, ← AList.lookup_isSome, entry]

/-- After a sweep, exactly the peers that still have an entry are online. -/
theorem sweep_isOnline (service : FriendzService J) (now : Instant) (node : String) :
    (service.sweepTimeouts now).2.isOnline now node = true ↔
      node ∈ (service.sweepTimeouts now).2.lastSeen := by
  rw [isOnline_iff, ← AList.lookup_isSome, sweep_lookup]
  split
  · simp
  · rename_i stays
    rw [mem_timedOut] at stays
    constructor
    · rintro ⟨seen, found, _⟩
      simp [found]
    · intro present
      obtain ⟨seen, found⟩ := Option.isSome_iff_exists.mp present
      exact ⟨seen, found, fun old => stays ⟨seen, found, old⟩⟩

theorem markOnline_effect (service : FriendzService J) (now : Instant)
    (nodeId username node : String) :
    Effect service (service.markOnlineIfNew now nodeId username).2 node
      (nodeId = node ∧ ∃ seen, service.lastSeen.lookup node = some seen ∧
        fromMillis heartbeatTimeoutMs ≤ now - seen) := by
  have entered : (service.markOnlineIfNew now nodeId username).2.lastSeen =
      service.lastSeen.insert nodeId now := by
    cases online : service.isOnline now nodeId <;> simp [markOnlineIfNew, online, send]
  have kept : node ∈ (service.markOnlineIfNew now nodeId username).2.lastSeen ↔
      node = nodeId ∨ node ∈ service.lastSeen := by
    rw [entered, AList.mem_insert]
  by_cases here : nodeId = node
  · subst here
    cases online : service.isOnline now nodeId with
    | true =>
      obtain ⟨seen, found, recent⟩ := (service.isOnline_iff now nodeId).mp online
      have present : nodeId ∈ service.lastSeen := AList.lookup_isSome.mp (by simp [found])
      refine .quiet (by simp [markOnlineIfNew, online]) (by simp [kept, present]) ?_
      rintro ⟨_, other, again, old⟩
      rw [found] at again
      cases again
      exact recent old
    | false =>
      have signal : edges nodeId (service.markOnlineIfNew now nodeId username).2.events =
          edges nodeId service.events ++ [true] := by
        simp [markOnlineIfNew, online, send, edges, edgeOf]
      cases found : service.lastSeen.lookup nodeId with
      | none =>
        exact .rise signal (AList.lookup_eq_none.mp found) (by simp [kept]) (by simp)
      | some seen =>
        have present : nodeId ∈ service.lastSeen := AList.lookup_isSome.mp (by simp [found])
        have old : fromMillis heartbeatTimeoutMs ≤ now - seen := by
          by_contra recent
          have := (service.isOnline_iff now nodeId).mpr ⟨seen, found, recent⟩
          simp [online] at this
        exact .relapse signal present (by simp [kept]) ⟨rfl, seen, rfl, old⟩
  · refine .quiet ?_ (by simp [kept, Ne.symm here]) (fun late => here late.1)
    cases online : service.isOnline now nodeId <;>
      simp [markOnlineIfNew, online, send, edges, edgeOf, here]

theorem offlineAnnouncement_effect (service : FriendzService J) (caller : Caller)
    (node : String) :
    Effect service (service.handleOfflineAnnouncement caller).2 node False := by
  unfold handleOfflineAnnouncement
  split
  · rename_i present
    by_cases here : caller.nodeId = node
    · subst here
      refine .fall ?_ (AList.lookup_isSome.mp present) ?_ not_false
      · simp [goOffline, send, edges, edgeOf]
      · simp [goOffline, send, AList.mem_erase]
    · refine .quiet ?_ ?_ not_false
      · simp [goOffline, send, edges, edgeOf, here]
      · simp [goOffline, send, AList.mem_erase, Ne.symm here]
  · exact .quiet rfl Iff.rfl not_false

end FriendzService

theorem Effect.idle (service : FriendzService J) (node : String) :
    Effect service service node False :=
  .quiet rfl Iff.rfl not_false

theorem Effect.send_message {service next : FriendzService J} {node : String} {late late' : Prop}
    (effect : Effect service next node late) (same : late ↔ late') (fromNodeId : String)
    (message : FriendzMessage J) :
    Effect service (next.send (.messageReceived fromNodeId message)) node late' := by
  have signal : edges node (next.send (.messageReceived fromNodeId message)).events =
      edges node next.events := by
    simp [FriendzService.send, edges, edgeOf]
  rw [← propext same]
  cases effect with
  | quiet old kept timely => exact .quiet (signal.trans old) kept timely
  | rise new absent entered timely => exact .rise (signal.trans new) absent entered timely
  | relapse new present kept missed => exact .relapse (signal.trans new) present kept missed
  | fall new present left timely => exact .fall (signal.trans new) present left timely

theorem dispatch_effect (service : FriendzService J) (now : Instant) (caller : Caller)
    (message : FriendzMessage J) (node : String) :
    Effect service (service.dispatch now caller message).2 node
      (LateArrival service node (now, .dispatch caller message)) := by
  have marked := service.markOnline_effect now caller.nodeId "" node
  cases message with
  | appExtension messageType payload =>
    exact (Effect.idle service node).send_message (by simp [LateArrival, announcesPresence]) _ _
  | core message =>
    cases message with
    | hello v nodeId username avatarBlobId capabilities =>
      have handled : (service.handleHello now caller).2 =
          (service.markOnlineIfNew now caller.nodeId "").2 := by
        unfold FriendzService.handleHello
        dsimp only
        split <;> rfl
      rw [← handled] at marked
      exact marked.send_message (by simp [LateArrival, announcesPresence]) _ _
    | heartbeat v nodeId username appPayload =>
      have handled : (service.handleHeartbeat now caller).2 =
          (service.markOnlineIfNew now caller.nodeId "").2 := by
        unfold FriendzService.handleHeartbeat
        dsimp only
        split <;> rfl
      rw [← handled] at marked
      exact marked.send_message (by simp [LateArrival, announcesPresence]) _ _
    | offlineAnnouncement v nodeId =>
      exact (service.offlineAnnouncement_effect caller node).send_message
        (by simp [LateArrival, announcesPresence]) _ _
    | _ =>
      exact (Effect.idle service node).send_message (by simp [LateArrival, announcesPresence]) _ _

theorem step_effect (service : FriendzService J) (call : Instant × Call J) (node : String) :
    Effect service (service.step call) node (LateArrival service node call) := by
  obtain ⟨now, call⟩ := call
  cases call with
  | dispatch caller message => exact dispatch_effect service now caller message node
  | sweepTimeouts => exact service.sweep_effect now node
  | setLocalUsername username => exact .quiet rfl Iff.rfl not_false
  | setLocalProfile profile => exact .quiet rfl Iff.rfl not_false
  | setLocalCapabilities capabilities => exact .quiet rfl Iff.rfl not_false

/-- In every state of a run, late arrivals or not, a node has an entry exactly when its last
edge is a rising one. -/
theorem entry_iff_last_rising (localNodeId localUsername : String)
    (calls : List (Instant × Call J)) (node : String) :
    node ∈ ((FriendzService.new localNodeId localUsername).run calls).lastSeen ↔
      (edges node ((FriendzService.new localNodeId localUsername).run calls).events).getLast?
        = some true := by
  induction calls using List.reverseRecOn with
  | nil => simp [FriendzService.run, FriendzService.new, edges]
  | append_singleton calls call ih =>
    rw [FriendzService.run_snoc]
    cases step_effect _ call node with
    | quiet same kept timely => rw [kept, same, ih]
    | rise new absent entered timely => simp [new, entered]
    | relapse new present kept missed => simp [new, kept]
    | fall new present left timely => simp [new, left]

theorem alternating_step (localNodeId localUsername : String) (calls : List (Instant × Call J))
    (call : Instant × Call J) (node : String) :
    Alternating (edges node
        ((FriendzService.new localNodeId localUsername).run (calls ++ [call])).events) ↔
      Alternating (edges node ((FriendzService.new localNodeId localUsername).run calls).events) ∧
        ¬ LateArrival ((FriendzService.new localNodeId localUsername).run calls) node call := by
  have entry := entry_iff_last_rising localNodeId localUsername calls node
  rw [FriendzService.run_snoc]
  cases step_effect (FriendzService.run _ calls) call node with
  | quiet same kept timely => rw [same, and_iff_left timely]
  | rise new absent entered timely =>
    have low : ((edges node ((FriendzService.new localNodeId localUsername).run
        calls).events).getLast?.getD false) = false := by
      cases last : (edges node ((FriendzService.new localNodeId localUsername).run
          calls).events).getLast? with
      | none => rfl
      | some edge =>
        cases edge with
        | false => rfl
        | true => exact absurd (entry.mpr last) absent
    rw [new, alternating_snoc, low]
    simp [timely]
  | relapse new present kept missed =>
    rw [new, alternating_snoc, entry.mp present]
    simp [missed]
  | fall new present left timely =>
    rw [new, alternating_snoc, entry.mp present]
    simp [timely]

theorem alternating_iff_timely (localNodeId localUsername : String)
    (calls : List (Instant × Call J)) (node : String) :
    Alternating (edges node ((FriendzService.new localNodeId localUsername).run calls).events) ↔
      ∀ before call after, calls = before ++ call :: after →
        ¬ LateArrival ((FriendzService.new localNodeId localUsername).run before) node call := by
  induction calls using List.reverseRecOn with
  | nil => simp [FriendzService.run, FriendzService.new, edges, Alternating]
  | append_singleton calls last ih =>
    rw [alternating_step, ih]
    constructor
    · rintro ⟨earlier, final⟩ before call after split
      rcases List.eq_nil_or_concat after with rfl | ⟨rest, lastAfter, rfl⟩
      · obtain ⟨rfl, same⟩ := List.append_inj' split rfl
        cases same
        exact final
      · rw [List.concat_eq_append, ← List.cons_append, ← List.append_assoc] at split
        exact earlier before call rest (List.append_inj' split rfl).1
    · intro timely
      refine ⟨fun before call after split => ?_, timely calls last [] rfl⟩
      exact timely before call (after ++ [last]) (by rw [split]; simp)

/-- The contract of presence on a run: every node's events alternate starting with online, and
at every sweep `isOnline` says what the node's last event said. -/
def PresenceContract (localNodeId localUsername : String) (calls : List (Instant × Call J)) :
    Prop :=
  ∀ node,
    Alternating (edges node ((FriendzService.new localNodeId localUsername).run calls).events) ∧
    ∀ before now after, calls = before ++ (now, Call.sweepTimeouts) :: after →
      let swept := (FriendzService.new localNodeId localUsername).run
        (before ++ [(now, Call.sweepTimeouts)])
      (swept.isOnline now node = true ↔ (edges node swept.events).getLast? = some true)

/-- Presence keeps its contract on exactly the runs without a late arrival. The readings of the
clock are arbitrary, a non-decreasing clock included. -/
theorem presence_contract_iff_timely (localNodeId localUsername : String)
    (calls : List (Instant × Call J)) :
    PresenceContract localNodeId localUsername calls ↔
      ∀ node before call after, calls = before ++ call :: after →
        ¬ LateArrival ((FriendzService.new localNodeId localUsername).run before) node call := by
  constructor
  · intro contract node
    exact (alternating_iff_timely localNodeId localUsername calls node).mp (contract node).1
  · intro timely node
    refine ⟨(alternating_iff_timely localNodeId localUsername calls node).mpr (timely node), ?_⟩
    intro before now after _ swept
    rw [← entry_iff_last_rising]
    have last : swept = (FriendzService.sweepTimeouts _ now).2 := FriendzService.run_snoc ..
    rw [last, show FriendzService.run _ _ = _ from last]
    exact FriendzService.sweep_isOnline _ now node

/-- Two heartbeats of one node, the second one exactly when the first has timed out. -/
def lateHeartbeats : List (Instant × Call String) :=
  [(0, .dispatch (Caller.new "node-a" .viewer) (.core (.heartbeat 1 "node-a" "alice" none))),
   (90000000000,
    .dispatch (Caller.new "node-a" .viewer) (.core (.heartbeat 1 "node-a" "alice" none)))]

theorem presence_contract_fails :
    (lateHeartbeats.map Prod.fst).Pairwise (· ≤ ·) ∧
      ¬ PresenceContract "local-node" "me" lateHeartbeats := by
  refine ⟨by decide, fun contract => ?_⟩
  have alternating := (contract "node-a").1
  revert alternating
  decide

end Tomb.Haruspex.Protocol
