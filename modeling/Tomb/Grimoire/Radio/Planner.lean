import Tomb.Lib.Runs
import Tomb.Lib.Entries
import Tomb.Lib.Text

/-! The rolling plan of a station: the run loop that takes the next track from it, the refills that
it spawns, and the skips and changes of the play mode that clear it. Every step is one access to the
plan or one answer that a task has waited for. -/
namespace Tomb.Grimoire.Radio.Planning
open Tomb.Lib

def maxUpcomingItems : Nat := 8

def minUpcomingItems : Nat := 2

def targetHorizonMs : Int := 15 * 60 * 1000

def skipRequestCooldownMs : Int := 5000

def skipTailIgnoreMs : Int := 10000

structure RadioTrack where
  songId : String
  durationMs : Option Int

/-- A planned item, and how often the plan had been cleared when its pick began. -/
structure PlannedItem where
  timelineItemId : String
  plannedStartAtMs : Int
  track : RadioTrack
  pickedUnder : Nat

/-- What a refill keeps from its snapshot on: the ids that are planned, the end of the plan, and the
items that it has picked. -/
structure Refill where
  excluded : List String
  currentCount : Nat
  (horizonBase horizonEnd : Int)
  anchorSongId : Option String
  newItems : List PlannedItem
  /-- How often refills had added to the plan at the snapshot. -/
  appendsSeen : Nat

inductive RefillStage where
  | stationAcceptsRequests
  | currentPlayMode
  | syncPlanMode (mode : String)
  | snapshot
  | anchor (refill : Refill)
  | pick (refill : Refill) (tries since : Nat)
  | append (refill : Refill)
  | done

structure RefillTask where
  seedAnchorSongId : Option String
  stage : RefillStage

inductive RunStage where
  | boundary
  | clearPlan
  | currentPlayMode
  | syncPlanMode (mode : String)
  | popFront
  | pickForStation
  | playTrack

structure StationPlay where
  playMode : String
  acceptsRequests : Int

structure Planner where
  stationId : String
  station : Option StationPlay
  plan : List PlannedItem := []
  planMode : Option String := none
  planItemSeq : Nat := 0
  trackStartedAtMs : Int := 0
  currentTrackDurationMs : Int := 0
  nowPlayingSongId : String := ""
  lastSkipRequestedAtMs : Int := 0
  forceNewAlbumPick : Bool := false
  run : RunStage := .boundary
  refills : List RefillTask := []
  clears : Nat := 0
  appends : Nat := 0

inductive PlannerOp where
  | editStation (station : Option StationPlay)
  | setTrack (startedAtMs durationMs : Int) (songId : String)
  | requestSkip (nowMs : Int)
  /-- The run loop goes on; what it waits for may be a pick. -/
  | runLoop (pick : Option RadioTrack)
  | refill (task : Nat) (pick : Option RadioTrack) (nowMs : Int)

namespace Planner

def new (stationId : String) (station : Option StationPlay) : Planner := { stationId, station }

variable (s : Planner)

def currentPlayMode : String :=
  match s.station with
  | some st => (Text.trim st.playMode).map Char.toLower
  | none => "shuffle"

def stationAcceptsRequests : Bool := s.station.any (·.acceptsRequests ≠ 0)

def clear : Planner := { s with plan := [], clears := s.clears + 1 }

def syncPlanMode (mode : String) : Planner :=
  if s.planMode = some mode then s else { s.clear with planMode := some mode }

def horizonBase (nowMs : Int) : Int :=
  if 0 < s.trackStartedAtMs ∧ 0 < s.currentTrackDurationMs then
    s.trackStartedAtMs + s.currentTrackDurationMs
  else nowMs

def snapshot (nowMs : Int) : Refill where
  excluded := s.plan.map (·.track.songId)
  currentCount := s.plan.length
  horizonBase := s.horizonBase nowMs
  horizonEnd := s.plan.foldl (fun acc item => acc + item.track.durationMs.getD 0)
    (s.horizonBase nowMs)
  anchorSongId := none
  newItems := []
  appendsSeen := s.appends

def anchorSongId (seed : Option String) : Option String :=
  match s.plan.getLast? with
  | some last => some last.track.songId
  | none =>
    match seed with
    | some songId => some songId
    | none =>
      let id := Text.trim s.nowPlayingSongId
      if id = "" then none else some id

def addTrack (refill : Refill) (track : RadioTrack) (since : Nat) : Refill :=
  { refill with
    anchorSongId := some track.songId
    excluded := refill.excluded ++ [track.songId]
    horizonEnd := refill.horizonEnd + track.durationMs.getD 0
    newItems := refill.newItems ++ [{
      timelineItemId := s.stationId ++ ":" ++ track.songId ++ ":" ++ toString s.planItemSeq
      plannedStartAtMs := refill.horizonEnd
      track := track
      pickedUnder := since }] }

end Planner

def Refill.finish (refill : Refill) : RefillStage :=
  if refill.newItems.isEmpty then .done else .append refill

def Refill.goOn (refill : Refill) (clears : Nat) : RefillStage :=
  let totalCount := refill.currentCount + refill.newItems.length
  if maxUpcomingItems ≤ totalCount then refill.finish
  else if targetHorizonMs ≤ refill.horizonEnd - refill.horizonBase ∧
      minUpcomingItems ≤ totalCount then refill.finish
  else .pick refill 3 clears

namespace Planner

variable (s : Planner)

def setStage (task : Nat) (stage : RefillStage) : Planner :=
  { s with refills := s.refills.modify task fun entry => { entry with stage := stage } }

def refill (task : Nat) (pick : Option RadioTrack) (nowMs : Int) : Planner :=
  match s.refills[task]? with
  | none => s
  | some entry =>
    match entry.stage with
    | .stationAcceptsRequests =>
      s.setStage task (if s.stationAcceptsRequests then .done else .currentPlayMode)
    | .currentPlayMode => s.setStage task (.syncPlanMode s.currentPlayMode)
    | .syncPlanMode mode => (s.syncPlanMode mode).setStage task .snapshot
    | .snapshot =>
      s.setStage task (if maxUpcomingItems ≤ s.plan.length then .done
        else .anchor (s.snapshot nowMs))
    | .anchor refill =>
      let refill := { refill with
        horizonBase := s.horizonBase nowMs
        anchorSongId := s.anchorSongId entry.seedAnchorSongId }
      s.setStage task (refill.goOn s.clears)
    | .pick refill tries since =>
      match pick with
      | none => s.setStage task .done
      | some track =>
        if track.songId ∉ refill.excluded then
          let next := { s with planItemSeq := s.planItemSeq + 1 }
          next.setStage task ((s.addTrack refill track since).goOn s.clears)
        else if tries ≤ 1 then s.setStage task refill.finish
        else s.setStage task (.pick refill (tries - 1) s.clears)
    | .append refill =>
      let next := { s with plan := s.plan ++ refill.newItems, appends := s.appends + 1 }
      next.setStage task .done
    | .done => s

def play (track : RadioTrack) : Planner :=
  { s with
    run := .playTrack
    refills := s.refills ++ [⟨some track.songId, .stationAcceptsRequests⟩] }

/-- A step of `run`. Tracks that do not come from the plan or a pick leave the plan alone. -/
def runLoop (pick : Option RadioTrack) : Planner :=
  match s.run with
  | .boundary =>
    { s with
      forceNewAlbumPick := false
      run := if s.forceNewAlbumPick then .clearPlan else .currentPlayMode }
  | .clearPlan => { s.clear with run := .pickForStation }
  | .currentPlayMode => { s with run := .syncPlanMode s.currentPlayMode }
  | .syncPlanMode mode => { s.syncPlanMode mode with run := .popFront }
  | .popFront =>
    match s.plan with
    | [] => { s with run := .pickForStation }
    | item :: rest => { s with plan := rest }.play item.track
  | .pickForStation =>
    match pick with
    | some track => s.play track
    | none => { s with run := .boundary }
  | .playTrack => { s with run := .boundary }

/-- A skip is accepted unless one was just now, no track of a known length plays, or it is nearly
over. -/
def requestSkip (nowMs : Int) : Planner :=
  if 0 < s.lastSkipRequestedAtMs ∧ nowMs - s.lastSkipRequestedAtMs < skipRequestCooldownMs then s
  else if s.trackStartedAtMs ≤ 0 ∨ s.currentTrackDurationMs ≤ 0 then s
  else if s.currentTrackDurationMs - (nowMs - s.trackStartedAtMs) ≤ skipTailIgnoreMs then s
  else { s with lastSkipRequestedAtMs := nowMs, forceNewAlbumPick := true }

def step : PlannerOp → Planner → Planner
  | .editStation station, s => { s with station := station }
  | .setTrack startedAtMs durationMs songId, s => { s with
      trackStartedAtMs := startedAtMs
      currentTrackDurationMs := durationMs
      nowPlayingSongId := songId }
  | .requestSkip nowMs, s => s.requestSkip nowMs
  | .runLoop pick, s => s.runLoop pick
  | .refill task pick nowMs, s => s.refill task pick nowMs

end Planner

end Tomb.Grimoire.Radio.Planning
