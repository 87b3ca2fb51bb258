import Tomb.Lib.Edges
import Tomb.Lib.Runs

/-! The status of the remote player that spume controls, next to switches of the player. A status
comes as a line of the push subscription or in the answer to a command, both after any time. The
count of failed exchanges, which only the display and the giving up of a subscription read, is left
out: a subscription may give up at any time. -/
namespace Tomb.Spume.RemoteTarget
open Tomb.Lib

structure NodeId where
  text : String
  nonempty : text ≠ ""
  deriving DecidableEq

structure RenditionRef where
  (blake3Hash label : String)
  mimeType : Option String
  (width height : Option Nat)
  deriving DecidableEq

inductive MediaKind where
  | audio
  | video
  deriving DecidableEq

structure RemoteMediaRef where
  (sourcePeerAddr blake3Hash : String)
  (sizeBytes durationMs : Option Nat)
  mimeType : Option String
  kind : Option MediaKind
  (title artist artworkThumbUrl artworkFullUrl : Option String)
  availableRenditions : Option (List RenditionRef)
  deriving DecidableEq

structure UnresolvedItemRef where
  (blake3Hash sourcePeerAddr : String)
  deriving DecidableEq

inductive RemoteState where
  | nowPlaying (item : RemoteMediaRef) (positionMs serverTimeMs : Rat)
  | paused (positionMs : Rat)
  | buffering
  | stopped
  | error (message : String)
  | playingRadio (peerAddr : String) (stationId title artist : Option String)
      (kind : Option MediaKind) (paused : Option Bool)
  deriving DecidableEq

structure RemoteStatus where
  state : RemoteState
  queue : List RemoteMediaRef
  autoDownloadEnabled : Bool
  volume : Rat
  recentlyPlayed : List String
  unresolvedItems : Option (List UnresolvedItemRef)
  deriving DecidableEq

def RemoteStatus.unresolved (status : RemoteStatus) : List UnresolvedItemRef :=
  status.unresolvedItems.getD []

def RemoteState.withoutClock : RemoteState → RemoteState
  | nowPlaying item _ _ => nowPlaying item 0 0
  | paused _ => paused 0
  | state => state

def RemoteStatus.strip (status : RemoteStatus) : RemoteStatus :=
  { status with state := status.state.withoutClock }

def RemoteState.jumped : RemoteState → RemoteState → Bool
  | nowPlaying _ position time, nowPlaying _ position' time' =>
    let drift := (position' - position) - (time' - time)
    2000 < drift || drift < -2000
  | _, _ => false

def statusEqualsIgnoringClock : Option RemoteStatus → Option RemoteStatus → Bool
  | none, none => true
  | some a, some b => !a.state.jumped b.state && a.strip = b.strip
  | _, _ => false

structure Report where
  sender : NodeId
  status : RemoteStatus
  deriving DecidableEq

@[grind =] def Report.hashes (report : Report) : List String :=
  report.status.unresolved.map (·.blake3Hash)

structure Call where
  peerAddr : NodeId
  items : List UnresolvedItemRef

structure Applied where
  report : Report
  called : Option Call

def Applied.reports (applied : Applied) (hash : String) : Bool := hash ∈ applied.report.hashes

def Applied.callsFor (applied : Applied) (hash : String) : Bool :=
  applied.called.any (·.items.any (·.blake3Hash = hash))

/-- A handler under way: the items that it has yet to relay, and the hashes of those relayed. -/
structure Help where
  peerAddr : NodeId
  left : List UnresolvedItemRef
  retried : List String

structure Controller where
  target : Option NodeId
  remoteStatus : Option Report
  subscription : Option NodeId
  pushSubscriptionGaveUp : Bool
  /-- The lines that are read and not yet handled. -/
  lines : List Report
  /-- The players of the commands that wait for their answers. -/
  commands : List NodeId
  helps : List Help
  /-- What was applied since the target changed, and in each stay before. -/
  stay : List Applied
  ended : List (List Applied)

inductive Op where
  | selectPlayer (player : NodeId)
  | selectLocal
  | forceResync
  /-- A command to the target, or the poll. -/
  | sendControl
  /-- A push of media to a player. -/
  | sendMedia (player : NodeId)
  | answer (command : Nat) (status : Option RemoteStatus)
  | fail (command : Nat)
  | readLine (status : RemoteStatus)
  | handleLine (line : Nat)
  | giveUp
  /-- The next item of a handler is relayed, or there is no help for it. -/
  | relay (help : Nat) (helped : Bool)

namespace Controller

def fresh : Controller := ⟨none, none, none, false, [], [], [], [], []⟩

variable (s : Controller)

@[grind =] def heldHashes : List String :=
  match s.remoteStatus with
  | none => []
  | some report => report.hashes

@[grind =] def keeps (status : Option RemoteStatus) : Bool :=
  statusEqualsIgnoringClock (s.remoteStatus.map (·.status)) status

def setRemoteStatus (report : Option Report) : Controller :=
  if s.keeps (report.map (·.status)) then s else { s with remoteStatus := report }

def subscribe : Controller := { s with subscription := s.target }

def resubscribePushStatusIfGivenUp : Controller :=
  if !s.pushSubscriptionGaveUp || s.subscription.isSome || s.target.isNone then s
  else { s with pushSubscriptionGaveUp := false }.subscribe

@[grind =] def newlyUnresolved (status : RemoteStatus) : List UnresolvedItemRef :=
  status.unresolved.filter (·.blake3Hash ∉ s.heldHashes)

@[grind =] def callFor (status : RemoteStatus) : Option Call :=
  match s.newlyUnresolved status with
  | [] => none
  | item :: rest => s.target.map (⟨·, item :: rest⟩)

def handle (report : Report) (called : Option Call) : Controller :=
  { s with
    helps := s.helps ++ called.toList.map fun call => ⟨call.peerAddr, call.items, []⟩
    stay := s.stay ++ [⟨report, called⟩] }

def applyRemoteStatus (report : Report) : Controller :=
  let s := s.resubscribePushStatusIfGivenUp
  (s.handle report (s.callFor report.status)).setRemoteStatus (some report)

def resetRemoteStatus : Controller := s.setRemoteStatus none

def sendTo (player : NodeId) : Controller := { s with commands := s.commands ++ [player] }

def changeTarget (target : Option NodeId) : Controller :=
  { s with target, stay := [], ended := s.stay :: s.ended }.subscribe

def setActiveTargetToPlayer (player : NodeId) : Controller :=
  if s.target = some player then s else (s.changeTarget (some player)).sendTo player

def setActiveTargetToLocal : Controller :=
  if s.target = none then s else (s.changeTarget none).resetRemoteStatus

def forceResyncRemoteStatus : Controller :=
  match s.target with
  | none => s
  | some player => (s.sendTo player).subscribe

def relay (help : Help) (item : UnresolvedItemRef) (rest : List UnresolvedItemRef) (i : Nat)
    (helped : Bool) : Controller :=
  let retried := if helped then help.retried ++ [item.blake3Hash] else help.retried
  match rest with
  | next :: later => { s with helps := s.helps.set i { help with left := next :: later, retried } }
  | [] =>
    let s := { s with helps := s.helps.eraseIdx i }
    if retried = [] then s else s.sendTo help.peerAddr

@[grind =] def step : Op → Controller → Controller
  | .selectPlayer player, s => (s.setActiveTargetToPlayer player).resetRemoteStatus
  | .selectLocal, s => s.setActiveTargetToLocal
  | .forceResync, s => s.forceResyncRemoteStatus
  | .sendControl, s =>
    match s.target with
    | none => s
    | some player => s.sendTo player
  | .sendMedia player, s => s.sendTo player
  | .answer i status, s =>
    match s.commands[i]? with
    | none => s
    | some player =>
      let s := { s with commands := s.commands.eraseIdx i }
      match status with
      | none => s
      | some status => s.applyRemoteStatus ⟨player, status⟩
  | .fail i, s => { s with commands := s.commands.eraseIdx i }
  | .readLine status, s =>
    match s.subscription with
    | none => s
    | some player => { s with lines := s.lines ++ [⟨player, status⟩] }
  | .handleLine i, s =>
    match s.lines[i]? with
    | none => s
    | some report => { s with lines := s.lines.eraseIdx i }.applyRemoteStatus report
  | .giveUp, s => { s with
      pushSubscriptionGaveUp := s.pushSubscriptionGaveUp || s.subscription.isSome
      subscription := none }
  | .relay i helped, s =>
    match s.helps[i]? with
    | some help =>
      match help.left with
      | item :: rest => s.relay help item rest i helped
      | [] => s
    | none => s

/-- The status held is the target's; a call is for the player that the status is from, about items
of that status; and in each stay, each longest run of statuses that report an item calls for it
once. -/
structure Belongs : Prop where
  held : ∀ report ∈ s.remoteStatus, s.target = some report.sender
  calls : ∀ stay ∈ s.stay :: s.ended, ∀ applied ∈ stay, ∀ call ∈ applied.called,
    call.peerAddr = applied.report.sender ∧
      ∀ item ∈ call.items, item ∈ applied.report.status.unresolved
  once : ∀ stay ∈ s.stay :: s.ended, ∀ hash, OncePerRun (·.reports hash) (·.callsFor hash) stay

/-- A status comes from the target, or is like the status held. What it reports and the last status
reported too, the status held reports: it was not cleared in between. -/
def timely (report : Report) : Bool :=
  (s.target = some report.sender || s.keeps (some report.status)) &&
    report.hashes.all fun hash =>
      !latest (·.reports hash) false s.stay || hash ∈ s.heldHashes

@[grind =] def fits (s : Controller) : Op → Bool
  | .answer i (some status) =>
    match s.commands[i]? with
    | some player => s.timely ⟨player, status⟩
    | none => true
  | .handleLine i =>
    match s.lines[i]? with
    | some report => s.timely report
    | none => true
  | _ => true

structure Invariant (s : Controller) : Prop where
  held : ∀ report ∈ s.remoteStatus, s.target = some report.sender
  calls : ∀ stay ∈ s.stay :: s.ended, ∀ applied ∈ stay, ∀ call ∈ applied.called,
    call.peerAddr = applied.report.sender ∧
      ∀ item ∈ call.items, item ∈ applied.report.status.unresolved
  edges : ∀ stay ∈ s.stay :: s.ended, ∀ hash,
    OnEdges (·.reports hash) (·.callsFor hash) false stay
  last : ∀ report ∈ s.remoteStatus, ∀ hash,
    latest (·.reports hash) false s.stay = decide (hash ∈ report.hashes)

variable {s}

theorem Invariant.belongs (inv : s.Invariant) : s.Belongs :=
  ⟨inv.held, inv.calls, fun stay member hash => (inv.edges stay member hash).oncePerRun⟩

variable {s' : Controller}

theorem Invariant.congr (inv : s.Invariant) (target : s'.target = s.target)
    (remoteStatus : s'.remoteStatus = s.remoteStatus) (stay : s'.stay = s.stay)
    (ended : s'.ended = s.ended) : s'.Invariant := by
  obtain ⟨held, calls, edges, last⟩ := inv
  rw [← remoteStatus, ← target] at held
  rw [← stay, ← ended] at calls edges
  rw [← remoteStatus, ← stay] at last
  exact ⟨held, calls, edges, last⟩

theorem keeps_none : s.keeps none = s.remoteStatus.isNone := by
  unfold keeps
  cases s.remoteStatus <;> rfl

theorem resetRemoteStatus_eq : s.resetRemoteStatus = { s with remoteStatus := none } := by
  unfold resetRemoteStatus setRemoteStatus
  rw [Option.map_none, keeps_none]
  cases held : s.remoteStatus with
  | none => rw [Option.isNone_none, if_pos rfl, ← held]
  | some report => rw [Option.isNone_some, if_neg Bool.false_ne_true]

theorem Invariant.cleared (remoteStatus : s.remoteStatus = none)
    (calls : ∀ stay ∈ s.stay :: s.ended, ∀ applied ∈ stay, ∀ call ∈ applied.called,
      call.peerAddr = applied.report.sender ∧
        ∀ item ∈ call.items, item ∈ applied.report.status.unresolved)
    (edges : ∀ stay ∈ s.stay :: s.ended, ∀ hash,
      OnEdges (·.reports hash) (·.callsFor hash) false stay) : s.Invariant := by
  refine ⟨fun report held => ?_, calls, edges, fun report held => ?_⟩
  · rw [remoteStatus] at held
    exact absurd held (Option.not_mem_none report)
  · rw [remoteStatus] at held
    exact absurd held (Option.not_mem_none report)

theorem Invariant.reset (inv : s.Invariant) : s.resetRemoteStatus.Invariant := by
  rw [resetRemoteStatus_eq]
  exact .cleared rfl inv.calls inv.edges

theorem Invariant.change (inv : s.Invariant)
    (remoteStatus : s'.remoteStatus = none) (stay : s'.stay = []) (ended : s'.ended = s.stay :: s.ended) : s'.Invariant := by
  apply Invariant.cleared remoteStatus
  · rw [stay, ended]
    exact List.forall_mem_cons.mpr ⟨List.forall_mem_nil _, inv.calls⟩
  · rw [stay, ended]
    exact List.forall_mem_cons.mpr ⟨fun _ => trivial, inv.edges⟩

variable {status : RemoteStatus}

theorem unresolved_of_keeps (keeps : s.keeps (some status) = true) :
    ∃ report, s.remoteStatus = some report ∧ report.status.unresolved = status.unresolved := by
  unfold Controller.keeps at keeps
  cases held : s.remoteStatus with
  | none =>
    rw [held] at keeps
    exact absurd keeps Bool.false_ne_true
  | some report =>
    rw [held] at keeps
    have alike := of_decide_eq_true (Bool.and_eq_true_iff.mp keeps).2
    have items : report.status.strip.unresolvedItems = status.strip.unresolvedItems :=
      congrArg RemoteStatus.unresolvedItems alike
    exact ⟨report, rfl, congrArg (·.getD []) items⟩

variable {report : Report}

theorem callsFor_callFor {player : NodeId} (target : s.target = some player) (hash : String) :
    Applied.callsFor ⟨report, s.callFor report.status⟩ hash =
      (decide (hash ∈ report.hashes) && !decide (hash ∈ s.heldHashes)) := by
  have called : Applied.callsFor ⟨report, s.callFor report.status⟩ hash =
      (s.newlyUnresolved report.status).any (·.blake3Hash = hash) := by
    unfold Applied.callsFor callFor
    rw [target]
    cases s.newlyUnresolved report.status <;> rfl
  rw [called, Bool.eq_iff_iff, List.any_eq_true]
  simp only [newlyUnresolved, List.mem_filter, decide_eq_true_eq, Bool.and_eq_true,
    Bool.not_eq_true', decide_eq_false_iff_not, Report.hashes, List.mem_map]
  constructor
  · rintro ⟨item, ⟨member, new⟩, rfl⟩
    exact ⟨⟨item, member, rfl⟩, new⟩
  · rintro ⟨⟨item, member, rfl⟩, new⟩
    exact ⟨item, ⟨member, new⟩, rfl⟩

theorem mem_callFor {call : Call} (member : call ∈ s.callFor status) :
    s.target = some call.peerAddr ∧ call.items = s.newlyUnresolved status ∧ call.items ≠ [] := by
  unfold callFor at member
  split at member
  · exact absurd member (Option.not_mem_none call)
  · rename_i item rest new
    obtain ⟨player, target, rfl⟩ := Option.map_eq_some_iff.mp member
    exact ⟨target, new.symm, List.cons_ne_nil item rest⟩

theorem heldHashes_eq (held : s.remoteStatus = some report) : s.heldHashes = report.hashes := by
  rw [heldHashes, held]

theorem newlyUnresolved_of_keeps (keeps : s.keeps (some status) = true) :
    s.newlyUnresolved status = [] := by
  obtain ⟨report, held, alike⟩ := unresolved_of_keeps keeps
  refine List.filter_eq_nil_iff.mpr fun item member => ?_
  rw [heldHashes_eq held, Report.hashes, alike, decide_eq_true_eq, not_not]
  exact List.mem_map_of_mem member

theorem resubscribe_fields :
    s.resubscribePushStatusIfGivenUp.target = s.target ∧
      s.resubscribePushStatusIfGivenUp.remoteStatus = s.remoteStatus ∧
      s.resubscribePushStatusIfGivenUp.stay = s.stay ∧
      s.resubscribePushStatusIfGivenUp.ended = s.ended := by
  unfold resubscribePushStatusIfGivenUp
  split <;> exact ⟨rfl, rfl, rfl, rfl⟩

theorem keeps_congr (remoteStatus : s'.remoteStatus = s.remoteStatus)
    (status : Option RemoteStatus) : s'.keeps status = s.keeps status := by
  rw [keeps, keeps, remoteStatus]

theorem callFor_congr (target : s'.target = s.target)
    (remoteStatus : s'.remoteStatus = s.remoteStatus) (status : RemoteStatus) :
    s'.callFor status = s.callFor status := by
  rw [callFor, callFor, newlyUnresolved, newlyUnresolved, heldHashes, heldHashes, target,
    remoteStatus]

theorem setRemoteStatus_spec (s : Controller) (report : Report) :
    (s.setRemoteStatus (some report)).target = s.target ∧
      (s.setRemoteStatus (some report)).remoteStatus =
        (if s.keeps (some report.status) then s.remoteStatus else some report) ∧
      (s.setRemoteStatus (some report)).stay = s.stay ∧
      (s.setRemoteStatus (some report)).ended = s.ended := by
  unfold setRemoteStatus
  rw [Option.map_some]
  split <;> exact ⟨rfl, rfl, rfl, rfl⟩

theorem applyRemoteStatus_spec (s : Controller) (report : Report) :
    (s.applyRemoteStatus report).target = s.target ∧
      (s.applyRemoteStatus report).remoteStatus =
        (if s.keeps (some report.status) then s.remoteStatus else some report) ∧
      (s.applyRemoteStatus report).stay = s.stay ++ [⟨report, s.callFor report.status⟩] ∧
      (s.applyRemoteStatus report).ended = s.ended := by
  obtain ⟨target, remoteStatus, stay, ended⟩ := resubscribe_fields (s := s)
  have called := callFor_congr target remoteStatus report.status
  have held : (s.resubscribePushStatusIfGivenUp.handle report
      (s.callFor report.status)).remoteStatus = s.remoteStatus := remoteStatus
  have set := (s.resubscribePushStatusIfGivenUp.handle report
    (s.callFor report.status)).setRemoteStatus_spec report
  rw [keeps_congr held, held] at set
  obtain ⟨target', remoteStatus', stay', ended'⟩ := set
  dsimp only [applyRemoteStatus]
  rw [called]
  refine ⟨target'.trans target, remoteStatus', stay'.trans ?_, ended'.trans ended⟩
  exact congrArg (· ++ [⟨report, s.callFor report.status⟩]) stay

theorem target_of_timely (inv : s.Invariant) (timely : s.timely report = true) :
    (∃ player, s.target = some player) ∧
      (s.target = some report.sender ∨ s.keeps (some report.status) = true) := by
  obtain ⟨origin, -⟩ := Bool.and_eq_true_iff.mp timely
  rcases Bool.or_eq_true_iff.mp origin with target | keeps
  · exact ⟨⟨report.sender, of_decide_eq_true target⟩, .inl (of_decide_eq_true target)⟩
  · obtain ⟨old, held, -⟩ := unresolved_of_keeps keeps
    exact ⟨⟨old.sender, inv.held old held⟩, .inr keeps⟩

theorem latest_of_mem_heldHashes (inv : s.Invariant) {hash : String}
    (member : hash ∈ s.heldHashes) :
    latest (·.reports hash) false s.stay = true := by
  cases held : s.remoteStatus with
  | none =>
    rw [heldHashes, held] at member
    exact absurd member List.not_mem_nil
  | some report =>
    rw [heldHashes_eq held] at member
    rw [inv.last report held, decide_eq_true member]

theorem heldHashes_of_timely (inv : s.Invariant) (timely : s.timely report = true)
    {hash : String} (reported : hash ∈ report.hashes) :
    decide (hash ∈ s.heldHashes) = latest (·.reports hash) false s.stay := by
  have recent := List.all_eq_true.mp (Bool.and_eq_true_iff.mp timely).2 hash reported
  cases last : latest (·.reports hash) false s.stay with
  | false => exact decide_eq_false fun held => by simp [latest_of_mem_heldHashes inv held] at last
  | true =>
    rw [last] at recent
    exact recent

theorem Invariant.apply (inv : s.Invariant) (timely : s.timely report = true) :
    (s.applyRemoteStatus report).Invariant := by
  obtain ⟨⟨player, active⟩, origin⟩ := target_of_timely inv timely
  obtain ⟨target, remoteStatus, stay, ended⟩ := s.applyRemoteStatus_spec report
  obtain ⟨callsNow, callsThen⟩ := List.forall_mem_cons.mp inv.calls
  obtain ⟨edgesNow, edgesThen⟩ := List.forall_mem_cons.mp inv.edges
  refine ⟨?_, ?_, ?_, ?_⟩
  · rw [remoteStatus, target]
    split
    · exact inv.held
    · rename_i differs
      intro new held
      obtain rfl := Option.some.inj held
      exact origin.resolve_right differs
  · rw [stay, ended]
    refine List.forall_mem_cons.mpr ⟨fun applied member call called => ?_, callsThen⟩
    rcases List.mem_append.mp member with before | now
    · exact callsNow applied before call called
    · obtain rfl := List.mem_singleton.mp now
      obtain ⟨own, items, nonempty⟩ := mem_callFor called
      rcases origin with sender | keeps
      · refine ⟨Option.some.inj (own.symm.trans sender), fun item listed => ?_⟩
        rw [items] at listed
        exact (List.mem_filter.mp listed).1
      · exact absurd (items.trans (newlyUnresolved_of_keeps keeps)) nonempty
  · rw [stay, ended]
    refine List.forall_mem_cons.mpr ⟨fun hash => onEdges_concat.mpr ⟨edgesNow hash, ?_⟩, edgesThen⟩
    rw [callsFor_callFor active, Applied.reports]
    cases reported : decide (hash ∈ report.hashes) with
    | false => rfl
    | true =>
      rw [Bool.true_and, Bool.true_and,
        heldHashes_of_timely inv timely (of_decide_eq_true reported)]
  · intro new held hash
    rw [stay, latest_concat]
    rw [remoteStatus] at held
    split at held
    · rename_i keeps
      obtain ⟨old, was, alike⟩ := unresolved_of_keeps keeps
      obtain rfl := Option.some.inj (was.symm.trans held)
      rw [Applied.reports, Report.hashes, Report.hashes, alike]
    · obtain rfl := Option.some.inj held
      rfl

theorem Invariant.timely (inv : s.Invariant)
    (belongs : (s.applyRemoteStatus report).Belongs) : s.timely report = true := by
  obtain ⟨target, remoteStatus, stay, ended⟩ := s.applyRemoteStatus_spec report
  have origin : s.target = some report.sender ∨ s.keeps (some report.status) = true := by
    by_cases keeps : s.keeps (some report.status) = true
    · exact .inr keeps
    · rw [if_neg keeps] at remoteStatus
      exact .inl (target.symm.trans (belongs.held report remoteStatus))
  obtain ⟨player, active⟩ : ∃ player, s.target = some player := by
    rcases origin with sender | keeps
    · exact ⟨report.sender, sender⟩
    · obtain ⟨old, held, -⟩ := unresolved_of_keeps keeps
      exact ⟨old.sender, inv.held old held⟩
  refine Bool.and_eq_true_iff.mpr ⟨by simpa using origin, ?_⟩
  refine List.all_eq_true.mpr fun hash reported => ?_
  rw [Bool.or_eq_true_iff, Bool.not_eq_true', decide_eq_true_eq]
  by_contra both
  obtain ⟨before, unheld⟩ := not_or.mp both
  have edges := inv.edges s.stay List.mem_cons_self hash
  have calls : Applied.callsFor ⟨report, s.callFor report.status⟩ hash = true := by
    rw [callsFor_callFor active, decide_eq_true reported, decide_eq_false unheld]
    rfl
  have once := belongs.once (s.applyRemoteStatus report).stay List.mem_cons_self hash
  rw [stay] at once
  exact edges.not_oncePerRun ((Bool.not_eq_false _).mp before) (decide_eq_true reported) calls once

theorem Invariant.subscribe (inv : s.Invariant) : s.subscribe.Invariant :=
  inv.congr rfl rfl rfl rfl

theorem Invariant.sendTo (inv : s.Invariant) (player : NodeId) : (s.sendTo player).Invariant :=
  inv.congr rfl rfl rfl rfl

theorem Invariant.relay (inv : s.Invariant) (help : Help) (item : UnresolvedItemRef)
    (rest : List UnresolvedItemRef) (i : Nat) (helped : Bool) :
    (s.relay help item rest i helped).Invariant := by
  unfold Controller.relay
  dsimp only
  cases rest with
  | cons next later => exact inv.congr rfl rfl rfl rfl
  | nil =>
    dsimp only
    split <;> split <;> exact inv.congr rfl rfl rfl rfl

theorem Invariant.step (inv : s.Invariant) {op : Op} (fits : s.fits op = true) :
    (step op s).Invariant := by
  cases op with
  | selectPlayer player =>
    rw [Controller.step, setActiveTargetToPlayer]
    split
    · exact inv.reset
    · rw [resetRemoteStatus_eq]
      exact inv.change rfl rfl rfl
  | selectLocal =>
    rw [Controller.step, setActiveTargetToLocal]
    split
    · exact inv
    · rw [resetRemoteStatus_eq]
      exact inv.change rfl rfl rfl
  | forceResync =>
    rw [Controller.step, forceResyncRemoteStatus]
    split
    · exact inv
    · exact (inv.sendTo _).subscribe
  | sendControl =>
    simp only [Controller.step]
    split
    · exact inv
    · exact inv.sendTo _
  | sendMedia player => exact inv.sendTo player
  | answer i status =>
    simp only [Controller.step]
    split
    · exact inv
    · rename_i player found
      have taken : Invariant { s with commands := s.commands.eraseIdx i } :=
        inv.congr rfl rfl rfl rfl
      cases status with
      | none => exact taken
      | some status =>
        rw [Controller.fits, found] at fits
        exact taken.apply fits
  | fail i => exact inv.congr rfl rfl rfl rfl
  | readLine status =>
    simp only [Controller.step]
    split
    · exact inv
    · exact inv.congr rfl rfl rfl rfl
  | handleLine i =>
    simp only [Controller.step]
    split
    · exact inv
    · rename_i report found
      have taken : Invariant { s with lines := s.lines.eraseIdx i } := inv.congr rfl rfl rfl rfl
      rw [Controller.fits, found] at fits
      exact taken.apply fits
  | giveUp => exact inv.congr rfl rfl rfl rfl
  | relay i helped =>
    simp only [Controller.step]
    split
    · split
      · exact inv.relay ..
      · exact inv
    · exact inv

theorem Invariant.fits (inv : s.Invariant) {op : Op} (belongs : (Controller.step op s).Belongs) :
    s.fits op = true := by
  cases op with
  | answer i status =>
    cases status with
    | none => rfl
    | some status =>
      simp only [Controller.step] at belongs
      rw [Controller.fits]
      split at belongs
      · rename_i missing
        rw [missing]
      · rename_i player found
        rw [found]
        have taken : Invariant { s with commands := s.commands.eraseIdx i } :=
          inv.congr rfl rfl rfl rfl
        exact taken.timely belongs
  | handleLine i =>
    simp only [Controller.step] at belongs
    rw [Controller.fits]
    split at belongs
    · rename_i missing
      rw [missing]
    · rename_i report found
      rw [found]
      have taken : Invariant { s with lines := s.lines.eraseIdx i } := inv.congr rfl rfl rfl rfl
      exact taken.timely belongs
  | _ => rfl

/-- The runs in which statuses belong to the target all along are those in which each status is
timely when it is applied. -/
theorem belongs_iff (ops : List Op) :
    Meets step (fun op s => s.fits op = true) ops fresh ↔
      ∀ taken, taken <+: ops → (runAll step taken fresh).Belongs := by
  have start : fresh.Invariant := by
    apply Invariant.cleared rfl
    · exact List.forall_mem_singleton.mpr (List.forall_mem_nil _)
    · exact List.forall_mem_singleton.mpr fun _ => trivial
  have keeps : ∀ op s, s.fits op = true → s.Invariant → (step op s).Invariant :=
    fun _ _ fits inv => inv.step fits
  have breaks : ∀ op s, s.Invariant → (step op s).Belongs → s.fits op = true :=
    fun _ _ inv belongs => inv.fits belongs
  exact meets_iff (fun _ => Invariant.belongs) keeps breaks start

def speaker : NodeId := ⟨"speaker", by decide⟩

def screen : NodeId := ⟨"screen", by decide⟩

def idle : RemoteStatus := ⟨.stopped, [], false, 1, [], none⟩

def answeredLate : List Op := [.selectPlayer speaker, .selectPlayer screen, .answer 0 (some idle)]

theorem held_from_another_player : ¬(runAll step answeredLate fresh).Belongs := by
  intro belongs
  exact absurd (belongs.held ⟨speaker, idle⟩ (by decide)) (by decide)

end Controller

end Tomb.Spume.RemoteTarget
