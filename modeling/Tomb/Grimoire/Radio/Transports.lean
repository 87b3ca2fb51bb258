import Tomb.Grimoire.Radio.Supervisor
import Tomb.Lib.Runs
import Tomb.Lib.Text

/-! Which transports a running station offers: the runtime flag of its broadcaster, the column that
keeps the flag, and the admin's calls that set the one and the other. The calls come one after the
other. -/
namespace Tomb.Grimoire.Radio.Transports
open Tomb.Lib

structure RadioStation where
  id : String
  (isPublic isEnabled timelineOnlyMode : Int)
  contentMode : String
  acceptsRequests : Int
  deriving DecidableEq

inductive RadioModeCapability where
  | chunkStream
  | timelineSeed
  deriving DecidableEq

structure Broadcaster where
  (stationId contentMode : String)
  listenerCount : Nat
  timelineOnlyMode : Bool

namespace Broadcaster

def new (stationId contentMode : String) : Broadcaster := ⟨stationId, contentMode, 0, false⟩

def setTimelineOnly (mode : Bool) (bc : Broadcaster) : Broadcaster :=
  { bc with timelineOnlyMode := mode }

def radioModeCapabilities (bc : Broadcaster) : List RadioModeCapability :=
  if bc.timelineOnlyMode then [.timelineSeed] else [.chunkStream, .timelineSeed]

end Broadcaster

structure CreateStationRequest where
  id : String
  (isPublic isEnabled timelineOnlyMode : Option Bool)
  contentMode : Option String
  acceptsRequests : Option Bool

structure UpdateStationRequest where
  id : String
  (isPublic isEnabled timelineOnlyMode : Option Bool)
  contentMode : Option String
  acceptsRequests : Option Bool

def normalizeContentMode (mode : Option String) : String :=
  let raw := (Text.trim (mode.getD "audio_only")).map Char.toLower
  if raw = "audio_or_video" then "audio_or_video"
  else if raw = "video_only" then "video_only"
  else "audio_only"

abbrev Stations := Table RadioStation.id

abbrev Broadcasters := Table Broadcaster.stationId

structure Server where
  cfg : RadioConfig
  (enabled ffmpegAvailable : Bool)
  stations : Stations
  registry : Broadcasters

inductive Op where
  | initRegistry (seed : String)
  | stationsCreate (req : CreateStationRequest) (idle : String)
  | stationsUpdate (req : UpdateStationRequest) (idle : String)
  | stationsDelete (id : String)
  | configSet (cfg : RadioConfig) (enabled : Bool) (seed : String)
  | startStation (id idle : String)
  | stopStation (id : String)
  | restartStation (id idle : String)
  | tune (id idle : String)
  | setListeners (id : String) (listeners : Nat)

def CreateStationRequest.row (req : CreateStationRequest) : RadioStation where
  id := req.id
  isPublic := (req.isPublic.getD false).toInt
  isEnabled := (req.isEnabled.getD true).toInt
  timelineOnlyMode := (req.timelineOnlyMode.getD false).toInt
  contentMode := normalizeContentMode req.contentMode
  acceptsRequests := (req.acceptsRequests.getD false).toInt

def UpdateStationRequest.apply (req : UpdateStationRequest) (row : RadioStation) : RadioStation where
  id := row.id
  isPublic := (req.isPublic.map Bool.toInt).getD row.isPublic
  isEnabled := (req.isEnabled.map Bool.toInt).getD row.isEnabled
  timelineOnlyMode := (req.timelineOnlyMode.map Bool.toInt).getD row.timelineOnlyMode
  contentMode := (req.contentMode.map fun mode => normalizeContentMode (some mode)).getD
    row.contentMode
  acceptsRequests := (req.acceptsRequests.map Bool.toInt).getD row.acceptsRequests

def UpdateStationRequest.isValid (req : UpdateStationRequest) (row : RadioStation) : Bool :=
  (req.isPublic.isNone && req.acceptsRequests.isNone) ||
    !(req.isPublic.getD (row.isPublic ≠ 0) && req.acceptsRequests.getD (row.acceptsRequests ≠ 0))

namespace Server

variable (s : Server)

def isRunning (id : String) : Bool := (s.registry.get id).isSome

def countGroup (video : Bool) : Nat :=
  (s.registry.select fun bc => isVideoCapable bc.contentMode = video).length

def idleInGroup (video : Bool) (exclude : String) : List String :=
  (s.registry.select fun bc => bc.stationId ≠ exclude && isVideoCapable bc.contentMode = video &&
    bc.listenerCount = 0).map (·.stationId)

def hasRoom (contentMode : String) : Bool :=
  let video := isVideoCapable contentMode
  s.countGroup video < s.cfg.limit video

def register (bc : Broadcaster) : Server := { s with registry := s.registry.upsert bc }

def stopStation (id : String) : Server :=
  { s with registry := s.registry.deleteWhere fun bc => bc.stationId = id }

def setTimelineOnly (id : String) (mode : Bool) : Server :=
  { s with registry := s.registry.update (·.stationId = id) (·.setTimelineOnly mode) fun _ => rfl }

def spawnAtBoot (st : RadioStation) : Server :=
  if s.isRunning st.id then s
  else if !s.hasRoom st.contentMode then s
  else
    let bc := Broadcaster.new st.id st.contentMode
    s.register (if st.timelineOnlyMode ≠ 0 then bc.setTimelineOnly true else bc)

def initRegistry (seed : String) : Server :=
  let stations := if s.stations.rows.isEmpty then
    s.stations.upsert (CreateStationRequest.row ⟨seed, some true, some true, none, none, none⟩)
  else s.stations
  (stations.rows.filter (·.isEnabled ≠ 0)).foldl spawnAtBoot { s with stations := stations }

def startStation (id idle : String) : Server × CallResult :=
  if s.isRunning id then (s, .ok)
  else match s.stations.get id with
    | none => (s, .notFound)
    | some st =>
      if st.isEnabled = 0 then (s, .disabled)
      else if s.hasRoom st.contentMode then (s.register (.new st.id st.contentMode), .ok)
      else
        let video := isVideoCapable st.contentMode
        match s.idleInGroup video id with
        | [] => (s, .capReached video (s.cfg.limit video))
        | first :: rest =>
          let stopped := s.stopStation (if idle ∈ first :: rest then idle else first)
          (stopped.register (.new st.id st.contentMode), .ok)

def restartStation (id idle : String) : Server × CallResult := (s.stopStation id).startStation id idle

def tune (id idle : String) : Server × CallResult :=
  if s.isRunning id then (s, .ok) else s.startStation id idle

def createStation (req : CreateStationRequest) : Option Server :=
  if req.isPublic.getD false && req.acceptsRequests.getD false then none
  else (s.stations.insert req.row).map fun stations => { s with stations := stations }

def updateStation (req : UpdateStationRequest) : Option Server :=
  match s.stations.get req.id with
  | none => none
  | some row =>
    if req.isValid row then some { s with
      stations := s.stations.update (·.id = req.id) req.apply fun _ => rfl }
    else none

def admitCreate (req : CreateStationRequest) : CreateStationRequest :=
  if s.ffmpegAvailable then req else { req with timelineOnlyMode := some true }

def stationsCreate (req : CreateStationRequest) (idle : String) : Server :=
  match s.createStation (s.admitCreate req) with
  | none => s
  | some created =>
    if s.enabled && (s.admitCreate req).row.isEnabled ≠ 0 then (created.startStation req.id idle).1
    else created

def admitUpdate (req : UpdateStationRequest) : UpdateStationRequest :=
  if !s.ffmpegAvailable && req.timelineOnlyMode = some false then
    { req with timelineOnlyMode := some true }
  else req

def follow (id idle : String) : Server × CallResult :=
  match s.stations.get id with
  | none => (s, .notFound)
  | some st =>
    if !s.enabled then (s, .ok)
    else if st.isEnabled ≠ 0 then s.startStation id idle
    else (s.stopStation id, .ok)

def stationsUpdate (req : UpdateStationRequest) (idle : String) : Server :=
  match s.updateStation (s.admitUpdate req) with
  | none => s
  | some updated =>
    let (followed, result) := updated.follow req.id idle
    match (s.admitUpdate req).timelineOnlyMode with
    | none => followed
    | some mode => if result = .ok then followed.setTimelineOnly req.id mode else followed

def stationsDelete (id : String) : Server :=
  let deleted := { s with stations := s.stations.deleteWhere fun row => row.id = id }
  deleted.stopStation id

def configSet (cfg : RadioConfig) (enabled : Bool) (seed : String) : Server :=
  let saved := { s with cfg := cfg, enabled := enabled }
  if enabled then saved.initRegistry seed else { saved with registry := ∅ }

end Server

def step : Op → Server → Server
  | .initRegistry seed, s => s.initRegistry seed
  | .stationsCreate req idle, s => s.stationsCreate req idle
  | .stationsUpdate req idle, s => s.stationsUpdate req idle
  | .stationsDelete id, s => s.stationsDelete id
  | .configSet cfg enabled seed, s => s.configSet cfg enabled seed
  | .startStation id idle, s => (s.startStation id idle).1
  | .stopStation id, s => s.stopStation id
  | .restartStation id idle, s => (s.restartStation id idle).1
  | .tune id idle, s => (s.tune id idle).1
  | .setListeners id listeners, s => { s with
      registry := s.registry.update (·.stationId = id)
        (fun bc => { bc with listenerCount := listeners }) fun _ => rfl }

end Tomb.Grimoire.Radio.Transports
