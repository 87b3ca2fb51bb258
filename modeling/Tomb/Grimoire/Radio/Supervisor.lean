import Tomb.Lib.Table

/-! The registry of the running broadcasters, the registry of their tasks, and the calls that start
and stop stations. A call is a sequence of steps, each of them under one lock or one query of the
database. Which station is the default one is left out, and so are the waits of a restart. -/
namespace Tomb.Grimoire.Radio
open Tomb.Lib

structure StationRow where
  id : String
  isEnabled : Int
  contentMode : String
  deriving DecidableEq

structure RadioConfig where
  (maxConcurrentAudioStreams maxConcurrentVideoStreams : Nat)

structure Running where
  (stationId contentMode : String)
  listenerCount : Nat

structure RunTask where
  stationId : String
  task : Nat
  deriving DecidableEq

abbrev Broadcasters := Table Running.stationId

abbrev Tasks := Table RunTask.stationId

def isVideoCapable (contentMode : String) : Bool := contentMode ≠ "audio_only"

def RadioConfig.limit (cfg : RadioConfig) (video : Bool) : Nat :=
  if video then cfg.maxConcurrentVideoStreams else cfg.maxConcurrentAudioStreams

def Running.isVideo (bc : Running) : Bool := isVideoCapable bc.contentMode

def countGroup (reg : Broadcasters) (video : Bool) : Nat :=
  (reg.select fun bc => bc.isVideo = video).length

def idleInGroup (reg : Broadcasters) (video : Bool) (exclude : String) : List String :=
  (reg.select fun bc => bc.stationId ≠ exclude && bc.isVideo = video && bc.listenerCount = 0).map
    (·.stationId)

inductive AfterStop where
  | finish
  | restart
  | spawn (stationId contentMode : String)

inductive CallResult where
  | ok
  | notFound
  | disabled
  | capReached (video : Bool) (limit : Nat)
  deriving DecidableEq

inductive SupervisorCall where
  | listStations (seed : StationRow)
  | spawnAll (rows : List StationRow)
  | check (stationId : String)
  | lookUp (stationId : String)
  | count (stationId contentMode : String)
  | findIdle (stationId contentMode : String)
  | spawn (stationId contentMode : String)
  | record (task : RunTask)
  | unregister (stationId : String) (after : AfterStop)
  | abort (stationId : String) (after : AfterStop)
  | finished (result : CallResult)

structure Supervisor where
  cfg : RadioConfig
  stations : List StationRow
  registry : Broadcasters
  tasks : Tasks
  live : List RunTask
  spawned : Nat
  calls : List SupervisorCall

inductive SupervisorOp where
  | editStations (rows : List StationRow)
  | setListeners (stationId : String) (listeners : Nat)
  | initRegistry (seed : StationRow)
  | startStation (stationId : String)
  | stopStation (stationId : String)
  | restartStation (stationId : String)
  | advance (call : Nat) (pick : String)

namespace Supervisor

def new (cfg : RadioConfig) (stations : List StationRow) : Supervisor :=
  ⟨cfg, stations, ∅, ∅, [], 0, []⟩

def isRegistered (reg : Broadcasters) (stationId : String) : Bool := (reg.get stationId).isSome

def call (c : SupervisorCall) (s : Supervisor) : Supervisor := { s with calls := s.calls ++ [c] }

def goOn (i : Nat) (c : SupervisorCall) (s : Supervisor) : Supervisor :=
  { s with calls := s.calls.set i c }

def spawn (stationId contentMode : String) (s : Supervisor) : Supervisor :=
  { s with
    registry := s.registry.upsert ⟨stationId, contentMode, 0⟩
    live := s.live ++ [⟨stationId, s.spawned⟩]
    spawned := s.spawned + 1 }

/-- A handle that was recorded for the station before is dropped, and its task goes on. -/
def record (task : RunTask) (s : Supervisor) : Supervisor :=
  { s with tasks := s.tasks.upsert task }

def unregister (stationId : String) (s : Supervisor) : Supervisor :=
  { s with registry := s.registry.deleteWhere fun bc => bc.stationId = stationId }

def abort (stationId : String) (s : Supervisor) : Supervisor :=
  { s with
    tasks := s.tasks.deleteWhere fun handle => handle.stationId = stationId
    live := match s.tasks.get stationId with
      | some handle => s.live.filter fun task => task ≠ handle
      | none => s.live }

def spawnAtBoot (s : Supervisor) (row : StationRow) : Supervisor :=
  if isRegistered s.registry row.id then s
  else if s.cfg.limit (isVideoCapable row.contentMode) ≤
      countGroup s.registry (isVideoCapable row.contentMode) then s
  else (s.spawn row.id row.contentMode).record ⟨row.id, s.spawned⟩

def nextCall (stationId : String) : AfterStop → SupervisorCall
  | .finish => .finished .ok
  | .restart => .check stationId
  | .spawn started contentMode => .spawn started contentMode

def advance (i : Nat) (pick : String) (s : Supervisor) : Supervisor :=
  match s.calls[i]? with
  | some (.listStations seed) =>
    let rows := if s.stations.isEmpty then [seed] else s.stations
    { s with stations := rows }.goOn i (.spawnAll (rows.filter (·.isEnabled ≠ 0)))
  | some (.spawnAll rows) => (rows.foldl spawnAtBoot s).goOn i (.finished .ok)
  | some (.check stationId) =>
    s.goOn i (if isRegistered s.registry stationId then .finished .ok else .lookUp stationId)
  | some (.lookUp stationId) =>
    match s.stations.find? (·.id = stationId) with
    | none => s.goOn i (.finished .notFound)
    | some row =>
      s.goOn i (if row.isEnabled = 0 then .finished .disabled else .count stationId row.contentMode)
  | some (.count stationId contentMode) =>
    let video := isVideoCapable contentMode
    s.goOn i (if s.cfg.limit video ≤ countGroup s.registry video then .findIdle stationId contentMode
      else .spawn stationId contentMode)
  | some (.findIdle stationId contentMode) =>
    let video := isVideoCapable contentMode
    let idle := idleInGroup s.registry video stationId
    if idle.isEmpty then s.goOn i (.finished (.capReached video (s.cfg.limit video)))
    else if pick ∈ idle then s.goOn i (.unregister pick (.spawn stationId contentMode))
    else s
  | some (.spawn stationId contentMode) =>
    (s.spawn stationId contentMode).goOn i (.record ⟨stationId, s.spawned⟩)
  | some (.record task) => (s.record task).goOn i (.finished .ok)
  | some (.unregister stationId after) => (s.unregister stationId).goOn i (.abort stationId after)
  | some (.abort stationId after) => (s.abort stationId).goOn i (nextCall stationId after)
  | _ => s

def step : SupervisorOp → Supervisor → Supervisor
  | .editStations rows, s => { s with stations := rows }
  | .setListeners stationId listeners, s => { s with
      registry := s.registry.update (·.stationId = stationId)
        (fun bc => { bc with listenerCount := listeners }) fun _ => rfl }
  | .initRegistry seed, s => s.call (.listStations seed)
  | .startStation stationId, s => s.call (.check stationId)
  | .stopStation stationId, s => s.call (.unregister stationId .finish)
  | .restartStation stationId, s => s.call (.unregister stationId .restart)
  | .advance i pick, s => s.advance i pick

end Supervisor

end Tomb.Grimoire.Radio
