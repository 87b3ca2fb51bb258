import Tomb.Grimoire.Radio.Transports

/-! A station that `start_station` spawns is configured as at boot just if its row does not ask for
the timeline alone. -/
namespace Tomb.Grimoire.Radio.Transports
open Tomb.Lib

namespace Server

variable {s : Server} {id idle : String} {row : RadioStation}

def startable (s : Server) (id : String) : Option RadioStation :=
  if s.isRunning id then none
  else (s.stations.get id).filter fun st => st.isEnabled ≠ 0 &&
    (s.hasRoom st.contentMode || (s.idleInGroup (isVideoCapable st.contentMode) id ≠ []))

theorem startable_eq_some : s.startable id = some row ↔ s.isRunning id = false ∧
    s.stations.get id = some row ∧ row.isEnabled ≠ 0 ∧
      (s.hasRoom row.contentMode = true ∨
        s.idleInGroup (isVideoCapable row.contentMode) id ≠ []) := by
  unfold startable
  cases s.isRunning id with
  | true => simp
  | false => simp [Option.filter_eq_some_iff]

theorem mem_idleInGroup {video : Bool} {exclude other : String}
    (idle : other ∈ s.idleInGroup video exclude) : other ≠ exclude := by
  obtain ⟨bc, chosen, rfl⟩ := List.mem_map.mp idle
  have wanted := (Table.mem_select _ _ _).mp chosen
  simp only [Bool.and_eq_true, decide_eq_true_eq] at wanted
  exact wanted.2.1.1

theorem startStation_of_none (none : s.startable id = none) :
    (s.startStation id idle).1 = s := by
  unfold startStation
  split
  · rfl
  · rename_i stopped
    split
    · rfl
    · rename_i row found
      split
      · rfl
      · rename_i enabled
        split
        · rename_i room
          rw [startable_eq_some.mpr ⟨Bool.eq_false_iff.mpr stopped, found, enabled,
            .inl room⟩] at none
          cases none
        · dsimp only
          split
          · rfl
          · rename_i first rest waiting
            rw [startable_eq_some.mpr ⟨Bool.eq_false_iff.mpr stopped, found, enabled,
              .inr (by rw [waiting]; exact List.cons_ne_nil _ _)⟩] at none
            cases none

theorem startStation_of_some (ready : s.startable id = some row) :
    ∃ stopped : Server, (stopped = s ∨ ∃ other, other ≠ id ∧ stopped = s.stopStation other) ∧
      s.startStation id idle = (stopped.register (.new row.id row.contentMode), .ok) := by
  obtain ⟨stopped, found, enabled, room⟩ := startable_eq_some.mp ready
  unfold startStation
  rw [stopped, if_neg Bool.false_ne_true, found]
  dsimp only
  rw [if_neg enabled]
  split
  · exact ⟨s, .inl rfl, rfl⟩
  · rename_i full
    split
    · rename_i none
      exact absurd none (room.resolve_left full)
    · rename_i first rest waiting
      refine ⟨_, .inr ⟨_, ?_, rfl⟩, rfl⟩
      apply @mem_idleInGroup s (isVideoCapable row.contentMode)
      rw [waiting]
      split
      · assumption
      · exact List.mem_cons_self

def configuration (s : Server) (id : String) : Option (String × List RadioModeCapability) :=
  (s.registry.get id).map fun bc => (bc.contentMode, bc.radioModeCapabilities)

theorem configuration_started (ready : s.startable id = some row) :
    (s.startStation id idle).1.configuration id =
      some (row.contentMode, [.chunkStream, .timelineSeed]) := by
  obtain ⟨stopped, -, started⟩ := @startStation_of_some s id idle row ready
  have named : row.id = id := ((Table.get_eq_some _ _ _).mp (startable_eq_some.mp ready).2.1).2
  rw [started, configuration, register, Table.get_upsert]
  exact congrArg (Option.map _) (if_pos named.symm)

theorem configuration_booted (absent : s.isRunning row.id = false)
    (room : s.hasRoom row.contentMode = true) :
    (s.spawnAtBoot row).configuration row.id = some (row.contentMode,
      if row.timelineOnlyMode ≠ 0 then [.timelineSeed] else [.chunkStream, .timelineSeed]) := by
  unfold spawnAtBoot
  rw [absent, if_neg Bool.false_ne_true, room, if_neg (by decide), configuration, register]
  split
  · rw [Table.get_upsert]
    exact congrArg _ (if_pos rfl)
  · rw [Table.get_upsert]
    exact congrArg _ (if_pos rfl)

end Server

/-- The flag of every running station is as its row has it. -/
def AsStored (s : Server) : Prop :=
  ∀ bc ∈ s.registry, ∃ row ∈ s.stations, row.id = bc.stationId ∧
    bc.timelineOnlyMode = decide (row.timelineOnlyMode ≠ 0)

namespace Server

variable {s : Server} {id idle : String} {row : RadioStation}

theorem stopStation_asStored (stored : AsStored s) : AsStored (s.stopStation id) :=
  fun bc member => stored bc ((Table.mem_deleteWhere _ _ _).mp member).1

theorem register_asStored_iff (stored : AsStored s) {bc : Broadcaster} (listed : row ∈ s.stations)
    (named : row.id = bc.stationId) :
    AsStored (s.register bc) ↔ bc.timelineOnlyMode = decide (row.timelineOnlyMode ≠ 0) := by
  constructor
  · intro after
    obtain ⟨other, there, same, flag⟩ := after bc ((Table.mem_upsert _ _ _).mpr (.inl rfl))
    rwa [s.stations.eq_of_key_eq there listed (same.trans named.symm)] at flag
  · intro flag other member
    obtain rfl | ⟨old, -⟩ := (Table.mem_upsert _ _ _).mp member
    · exact ⟨row, listed, named, flag⟩
    · exact stored other old

theorem startStation_asStored_iff (stored : AsStored s) :
    AsStored (s.startStation id idle).1 ↔ ∀ row ∈ s.startable id, row.timelineOnlyMode = 0 := by
  cases ready : s.startable id with
  | none =>
    rw [startStation_of_none ready]
    exact iff_of_true stored fun _ none => (nomatch none)
  | some row =>
    obtain ⟨stopped, which, started⟩ := @startStation_of_some s id idle row ready
    have listed : row ∈ s.stations :=
      ((Table.get_eq_some _ _ _).mp (startable_eq_some.mp ready).2.1).1
    have before : AsStored stopped ∧ row ∈ stopped.stations := by
      obtain rfl | ⟨other, -, rfl⟩ := which
      · exact ⟨stored, listed⟩
      · exact ⟨stopStation_asStored stored, listed⟩
    have named : row.id = (Broadcaster.new row.id row.contentMode).stationId := rfl
    rw [started, register_asStored_iff before.1 before.2 named]
    constructor
    · intro flag other same
      rw [← Option.some.inj same]
      have off : ¬row.timelineOnlyMode ≠ 0 := of_decide_eq_false flag.symm
      exact not_not.mp off
    · intro all
      rw [all row rfl]
      rfl

theorem spawnAtBoot_asStored (stored : AsStored s) (listed : row ∈ s.stations) :
    AsStored (s.spawnAtBoot row) := by
  unfold spawnAtBoot
  split
  · exact stored
  · split
    · exact stored
    · dsimp only
      split
      · rename_i flag
        exact (register_asStored_iff stored listed rfl).mpr (decide_eq_true flag).symm
      · rename_i flag
        exact (register_asStored_iff stored listed rfl).mpr (decide_eq_false flag).symm

theorem stations_spawnAtBoot : (s.spawnAtBoot row).stations = s.stations := by
  unfold spawnAtBoot
  split
  · rfl
  · split
    · rfl
    · rfl

theorem foldl_spawnAtBoot_asStored {rows : List RadioStation} (stored : AsStored s)
    (listed : ∀ row ∈ rows, row ∈ s.stations) : AsStored (rows.foldl spawnAtBoot s) := by
  induction rows generalizing s with
  | nil => exact stored
  | cons row rest ih =>
    apply ih (spawnAtBoot_asStored stored (listed row List.mem_cons_self))
    intro other member
    rw [stations_spawnAtBoot]
    exact listed other (List.mem_cons_of_mem _ member)

theorem initRegistry_asStored {seed : String} (stored : AsStored s) :
    AsStored (s.initRegistry seed) := by
  unfold initRegistry
  dsimp only
  apply foldl_spawnAtBoot_asStored
  · intro bc member
    obtain ⟨row, listed, named, flag⟩ := stored bc member
    refine ⟨row, ?_, named, flag⟩
    dsimp only
    rw [if_neg]
    · exact listed
    · intro empty
      rw [Table.mem_def, List.isEmpty_iff.mp empty] at listed
      cases listed
  · exact fun row member => (List.mem_filter.mp member).1

theorem createStation_spec {req : CreateStationRequest} {created : Server}
    (done : s.createStation req = some created) (stored : AsStored s) :
    AsStored created ∧ created.enabled = s.enabled ∧
      created.stations.get req.id = some req.row := by
  unfold createStation at done
  split at done
  · cases done
  · obtain ⟨stations, inserted, rfl⟩ := Option.map_eq_some_iff.mp done
    refine ⟨fun bc member => ?_, rfl, ?_⟩
    · obtain ⟨row, listed, named, flag⟩ := stored bc member
      exact ⟨row, (Table.insert_eq_some _ _ _ inserted row).mpr (.inl listed), named, flag⟩
    · rw [Table.get_insert _ _ _ inserted]
      exact if_pos rfl

def AsStoredBut (id : String) (s : Server) : Prop :=
  ∀ bc ∈ s.registry, ∃ row ∈ s.stations, row.id = bc.stationId ∧
    (bc.stationId ≠ id → bc.timelineOnlyMode = decide (row.timelineOnlyMode ≠ 0))

theorem updateStation_spec {req : UpdateStationRequest} {updated : Server}
    (done : s.updateStation req = some updated) (stored : AsStored s) :
    AsStoredBut req.id updated ∧ (req.timelineOnlyMode = none → AsStored updated) ∧
      updated.enabled = s.enabled ∧ ∃ row ∈ updated.stations, row.id = req.id ∧ ∀ mode ∈ req.timelineOnlyMode,
        row.timelineOnlyMode = mode.toInt := by
  unfold updateStation at done
  split at done
  · cases done
  · rename_i row found
    split at done
    · obtain rfl := Option.some.inj done
      obtain ⟨there, named⟩ := (Table.get_eq_some _ _ _).mp found
      have image (old : RadioStation) (listed : old ∈ s.stations) :=
        (Table.mem_update s.stations (·.id = req.id) req.apply (fun _ => rfl) _).mpr
          ⟨old, listed, rfl⟩
      refine ⟨fun bc member => ?_, fun none bc member => ?_, rfl, ?_⟩
      · obtain ⟨old, listed, same, flag⟩ := stored bc member
        refine ⟨_, image old listed, ?_, fun other => ?_⟩
        · split
          · exact same
          · exact same
        · rw [if_neg]
          · exact flag
          · rw [same, decide_eq_true_eq]
            exact other
      · obtain ⟨old, listed, same, flag⟩ := stored bc member
        refine ⟨_, image old listed, ?_, ?_⟩
        · split
          · exact same
          · exact same
        · rw [flag]
          split
          · rw [UpdateStationRequest.apply, none]
            rfl
          · rfl
      · refine ⟨_, image row there, ?_, fun mode asked => ?_⟩
        · split
          · exact named
          · exact named
        · rw [if_pos (decide_eq_true named), UpdateStationRequest.apply,
            Option.mem_def.mp asked]
          rfl
    · cases done

theorem setTimelineOnly_asStored {mode : Bool} (but : AsStoredBut id s) (listed : row ∈ s.stations)
    (named : row.id = id) (asked : row.timelineOnlyMode = mode.toInt) :
    AsStored (s.setTimelineOnly id mode) := by
  intro bc member
  obtain ⟨old, there, rfl⟩ := (Table.mem_update s.registry (·.stationId = id)
    (·.setTimelineOnly mode) (fun _ => rfl) bc).mp member
  obtain ⟨other, known, same, flag⟩ := but old there
  split
  · rename_i here
    refine ⟨row, listed, named.trans (of_decide_eq_true here).symm, ?_⟩
    rw [asked]
    cases mode with
    | true => rfl
    | false => rfl
  · rename_i elsewhere
    exact ⟨other, known, same, flag fun here => elsewhere (decide_eq_true here)⟩

theorem AsStoredBut.of_stopped (but : AsStoredBut id s) (stopped : s.isRunning id = false) :
    AsStored s := by
  intro bc member
  obtain ⟨row, listed, named, flag⟩ := but bc member
  have none : s.registry.get id = none := Option.isNone_iff_eq_none.mp (by
    rw [isRunning] at stopped
    rw [← Option.not_isSome, stopped]
    rfl)
  exact ⟨row, listed, named, flag ((Table.get_eq_none _ _).mp none bc member)⟩

theorem startStation_but (but : AsStoredBut id s) :
    AsStoredBut id (s.startStation id idle).1 ∧ (s.startStation id idle).1.stations = s.stations ∧
      ((s.startStation id idle).2 ≠ .ok → AsStored (s.startStation id idle).1) := by
  cases ready : s.startable id with
  | none =>
    rw [startStation_of_none ready]
    refine ⟨but, rfl, fun failed => ?_⟩
    apply but.of_stopped
    rw [Bool.eq_false_iff]
    intro running
    rw [startStation, if_pos running] at failed
    exact failed rfl
  | some row =>
    obtain ⟨stopped, which, started⟩ := @startStation_of_some s id idle row ready
    obtain ⟨listed, named⟩ := (Table.get_eq_some _ _ _).mp (startable_eq_some.mp ready).2.1
    have same : stopped.stations = s.stations ∧ ∀ bc ∈ stopped.registry, bc ∈ s.registry := by
      obtain rfl | ⟨other, -, rfl⟩ := which
      · exact ⟨rfl, fun _ member => member⟩
      · exact ⟨rfl, fun bc member => ((Table.mem_deleteWhere _ _ _).mp member).1⟩
    rw [started]
    refine ⟨fun bc member => ?_, same.1, fun failed => absurd rfl failed⟩
    obtain rfl | ⟨old, -⟩ := (Table.mem_upsert _ _ _).mp member
    · refine ⟨row, ?_, rfl, fun other => absurd named other⟩
      change row ∈ stopped.stations
      rwa [same.1]
    · obtain ⟨other, there, flagged⟩ := but bc (same.2 bc old)
      refine ⟨other, ?_, flagged⟩
      change other ∈ stopped.stations
      rwa [same.1]

theorem follow_but (but : AsStoredBut id s) (listed : row ∈ s.stations) (named : row.id = id) :
    AsStoredBut id (s.follow id idle).1 ∧ (s.follow id idle).1.stations = s.stations ∧
      ((s.follow id idle).2 ≠ .ok → AsStored (s.follow id idle).1) := by
  unfold follow
  rw [(Table.get_eq_some _ _ _).mpr ⟨listed, named⟩]
  dsimp only
  split
  · exact ⟨but, rfl, fun failed => absurd rfl failed⟩
  · split
    · exact startStation_but but
    · exact ⟨fun bc member => but bc ((Table.mem_deleteWhere _ _ _).mp member).1, rfl,
        fun failed => absurd rfl failed⟩

theorem follow_asStored_iff (stored : AsStored s) :
    AsStored (s.follow id idle).1 ↔
      (s.enabled = true → ∀ row ∈ s.startable id, row.timelineOnlyMode = 0) := by
  have unstarted (none : s.stations.get id = none ∨ ∃ row, s.stations.get id = some row ∧
      row.isEnabled = 0) : ∀ row ∈ s.startable id, row.timelineOnlyMode = 0 := by
    intro row ready
    obtain ⟨-, found, enabled, -⟩ := startable_eq_some.mp ready
    obtain absent | ⟨other, there, off⟩ := none
    · rw [absent] at found
      cases found
    · rw [there] at found
      rw [Option.some.inj found] at off
      exact absurd off enabled
  unfold follow
  split
  · rename_i absent
    exact iff_of_true stored fun _ => unstarted (.inl absent)
  · rename_i row found
    split
    · rename_i off
      refine iff_of_true stored fun on => ?_
      rw [on] at off
      cases off
    · rename_i on
      have enabled : s.enabled = true := by
        rwa [Bool.not_eq_true, Bool.not_eq_false'] at on
      split
      · rw [startStation_asStored_iff stored]
        exact ⟨fun all _ => all, fun all => all enabled⟩
      · rename_i stopped
        exact iff_of_true (stopStation_asStored stored) fun _ =>
          unstarted (.inr ⟨row, found, not_not.mp stopped⟩)

end Server

/-- Whatever a call starts has no flag in its row, or is given the flag by the same call. -/
def Op.Seeds : Op → Server → Prop
  | .startStation id _, s | .tune id _, s => ∀ row ∈ s.startable id, row.timelineOnlyMode = 0
  | .restartStation id _, s => ∀ row ∈ (s.stopStation id).startable id, row.timelineOnlyMode = 0
  | .stationsCreate req _, s => ∀ created ∈ s.createStation (s.admitCreate req),
    s.enabled = true → ∀ row ∈ created.startable req.id, row.timelineOnlyMode = 0
  | .stationsUpdate req _, s => ∀ updated ∈ s.updateStation (s.admitUpdate req),
    req.timelineOnlyMode = none → s.enabled = true →
      ∀ row ∈ updated.startable req.id, row.timelineOnlyMode = 0
  | _, _ => True

instance (op : Op) (s : Server) : Decidable (op.Seeds s) :=
  match op with
  | .startStation id _ | .tune id _ =>
    inferInstanceAs (Decidable (∀ row ∈ s.startable id, row.timelineOnlyMode = 0))
  | .restartStation id _ =>
    inferInstanceAs (Decidable (∀ row ∈ (s.stopStation id).startable id, row.timelineOnlyMode = 0))
  | .stationsCreate req _ => inferInstanceAs (Decidable (∀ created ∈ s.createStation
    (s.admitCreate req), s.enabled = true → ∀ row ∈ created.startable req.id,
      row.timelineOnlyMode = 0))
  | .stationsUpdate req _ => inferInstanceAs (Decidable (∀ updated ∈ s.updateStation
    (s.admitUpdate req), req.timelineOnlyMode = none → s.enabled = true →
      ∀ row ∈ updated.startable req.id, row.timelineOnlyMode = 0))
  | .initRegistry _ | .stationsDelete _ | .configSet _ _ _ | .stopStation _ | .setListeners _ _ =>
    inferInstanceAs (Decidable True)

section Step

variable {s : Server}

theorem stationsCreate_asStored_iff {req : CreateStationRequest} {idle : String}
    (stored : AsStored s) : AsStored (s.stationsCreate req idle) ↔
      ∀ created ∈ s.createStation (s.admitCreate req), s.enabled = true →
        ∀ row ∈ created.startable req.id, row.timelineOnlyMode = 0 := by
  unfold Server.stationsCreate
  cases done : s.createStation (s.admitCreate req) with
  | none => exact iff_of_true stored fun _ absent => (nomatch absent)
  | some created =>
    obtain ⟨before, enabled, found⟩ := Server.createStation_spec done stored
    have named : (s.admitCreate req).id = req.id := by
      unfold Server.admitCreate
      split
      · rfl
      · rfl
    rw [named] at found
    have only : (∀ other ∈ some created, s.enabled = true →
        ∀ row ∈ other.startable req.id, row.timelineOnlyMode = 0) ↔
        (s.enabled = true → ∀ row ∈ created.startable req.id, row.timelineOnlyMode = 0) :=
      ⟨fun all => all created rfl, fun all other same => Option.some.inj same ▸ all⟩
    rw [only]
    dsimp only
    split
    · rename_i starts
      rw [Bool.and_eq_true] at starts
      rw [Server.startStation_asStored_iff before]
      exact ⟨fun all _ => all, fun all => all starts.1⟩
    · rename_i unstarted
      refine iff_of_true before fun on row ready => ?_
      obtain ⟨-, there, enabledRow, -⟩ := Server.startable_eq_some.mp ready
      rw [found] at there
      rw [on, Option.some.inj there, Bool.true_and, decide_eq_true_eq] at unstarted
      exact absurd enabledRow unstarted

theorem stationsUpdate_asStored_iff {req : UpdateStationRequest} {idle : String}
    (stored : AsStored s) : AsStored (s.stationsUpdate req idle) ↔
      ∀ updated ∈ s.updateStation (s.admitUpdate req), req.timelineOnlyMode = none →
        s.enabled = true → ∀ row ∈ updated.startable req.id, row.timelineOnlyMode = 0 := by
  unfold Server.stationsUpdate
  cases done : s.updateStation (s.admitUpdate req) with
  | none => exact iff_of_true stored fun _ absent => (nomatch absent)
  | some updated =>
    obtain ⟨but, unasked, enabled, row, listed, named, asked⟩ :=
      Server.updateStation_spec done stored
    have same : (s.admitUpdate req).id = req.id := by
      unfold Server.admitUpdate
      split
      · rfl
      · rfl
    have flagged : (s.admitUpdate req).timelineOnlyMode = none ↔ req.timelineOnlyMode = none := by
      unfold Server.admitUpdate
      split
      · rename_i forced
        rw [Bool.and_eq_true, decide_eq_true_eq] at forced
        rw [forced.2]
        exact iff_of_false (Option.some_ne_none _) (Option.some_ne_none _)
      · rfl
    have only : (∀ other ∈ some updated, req.timelineOnlyMode = none → s.enabled = true →
        ∀ row ∈ other.startable req.id, row.timelineOnlyMode = 0) ↔
        (req.timelineOnlyMode = none → s.enabled = true →
          ∀ row ∈ updated.startable req.id, row.timelineOnlyMode = 0) :=
      ⟨fun all => all updated rfl, fun all other same => Option.some.inj same ▸ all⟩
    rw [same] at but named
    rw [only, ← flagged]
    dsimp only
    obtain ⟨but', stations, failed⟩ := @Server.follow_but updated req.id idle row but listed named
    cases mode : (s.admitUpdate req).timelineOnlyMode with
    | none =>
      dsimp only
      rw [Server.follow_asStored_iff (unasked mode), enabled]
      exact ⟨fun all _ => all, fun all => all rfl⟩
    | some asks =>
      refine iff_of_true ?_ fun unset => (nomatch unset)
      dsimp only
      split
      · rw [← stations] at listed
        exact Server.setTimelineOnly_asStored but' listed named (asked asks mode)
      · rename_i refused
        exact failed refused

theorem step_asStored_iff (op : Op) (stored : AsStored s) :
    AsStored (step op s) ↔ op.Seeds s := by
  cases op with
  | initRegistry seed => exact iff_of_true (Server.initRegistry_asStored stored) trivial
  | stationsCreate req idle => exact stationsCreate_asStored_iff stored
  | stationsUpdate req idle => exact stationsUpdate_asStored_iff stored
  | stationsDelete id =>
    refine iff_of_true (fun bc member => ?_) trivial
    obtain ⟨old, other⟩ := (Table.mem_deleteWhere _ _ _).mp member
    obtain ⟨row, listed, named, flag⟩ := stored bc old
    refine ⟨row, (Table.mem_deleteWhere _ _ _).mpr ⟨listed, ?_⟩, named, flag⟩
    rwa [named]
  | configSet cfg enabled seed =>
    refine iff_of_true ?_ trivial
    unfold step Server.configSet
    dsimp only
    split
    · exact Server.initRegistry_asStored stored
    · exact fun bc member => absurd member (Table.not_mem_empty bc)
  | startStation id idle => exact Server.startStation_asStored_iff stored
  | stopStation id => exact iff_of_true (Server.stopStation_asStored stored) trivial
  | restartStation id idle =>
    exact Server.startStation_asStored_iff (Server.stopStation_asStored stored)
  | tune id idle =>
    unfold step Server.tune
    dsimp only
    split
    · rename_i running
      refine iff_of_true stored fun row ready => ?_
      rw [(Server.startable_eq_some.mp ready).1] at running
      cases running
    · exact Server.startStation_asStored_iff stored
  | setListeners id listeners =>
    refine iff_of_true (fun bc member => ?_) trivial
    obtain ⟨old, there, rfl⟩ := (Table.mem_update s.registry (·.stationId = id)
      (fun bc => { bc with listenerCount := listeners }) (fun _ => rfl) bc).mp member
    split
    · exact stored old there
    · exact stored old there

/-- A call spawns the station of its row, in one of the ways that end in `start_station`. -/
inductive Spawns (row : RadioStation) (idle : String) (s : Server) : Server → Prop where
  | start (ready : s.startable row.id = some row) :
    Spawns row idle s (s.startStation row.id idle).1
  | tune (ready : s.startable row.id = some row) : Spawns row idle s (s.tune row.id idle).1
  | restart (ready : (s.stopStation row.id).startable row.id = some row) :
    Spawns row idle s (s.restartStation row.id idle).1

theorem Spawns.configuration {row : RadioStation} {idle : String} {s' : Server}
    (spawns : Spawns row idle s s') :
    s'.configuration row.id = some (row.contentMode, [.chunkStream, .timelineSeed]) := by
  cases spawns with
  | start ready => exact Server.configuration_started ready
  | tune ready =>
    rw [Server.tune, (Server.startable_eq_some.mp ready).1, if_neg Bool.false_ne_true]
    exact Server.configuration_started ready
  | restart ready => exact Server.configuration_started ready

/-- What a call spawns is configured as at boot just if its row has no flag; and a run keeps every
flag as its row has it as long as no call starts a station whose row has the flag. -/
theorem spawned_as_booted_iff {row : RadioStation} {idle : String} {s' booted : Server}
    (spawns : Spawns row idle s s') (free : booted.isRunning row.id = false)
    (room : booted.hasRoom row.contentMode = true) (stored : AsStored s) :
    (s'.configuration row.id = (booted.spawnAtBoot row).configuration row.id ↔
      row.timelineOnlyMode = 0) ∧
    (∀ op, AsStored (step op s) ↔ op.Seeds s) ∧
    ∀ ops, Meets step Op.Seeds ops s → AsStored (runAll step ops s) := by
  refine ⟨?_, fun op => step_asStored_iff op stored, fun ops seeds => ?_⟩
  · rw [spawns.configuration, Server.configuration_booted free room, Option.some_inj,
      Prod.mk.injEq, and_iff_right rfl]
    split
    · rename_i flag
      exact iff_of_false (by decide) flag
    · rename_i unset
      exact iff_of_true rfl (not_not.mp unset)
  · have keeps : ∀ op s, Op.Seeds op s → AsStored s → AsStored (step op s) :=
      fun op _ seeds stored => (step_asStored_iff op stored).mpr seeds
    exact Meets.keeps keeps seeds stored

end Step

def oneStation (timelineOnlyMode : Int) : Server where
  cfg := ⟨1, 1⟩
  enabled := true
  ffmpegAvailable := true
  stations := (∅ : Stations).upsert ⟨"s1", 1, 1, timelineOnlyMode, "audio_only", 0⟩
  registry := ∅

theorem plain_station_as_booted :
    let row := ⟨"s1", 1, 1, 0, "audio_only", 0⟩
    let s := oneStation 0
    let ops := [.initRegistry "s2", .stationsUpdate ⟨"s1", none, none, some true, none, none⟩ "",
      .stopStation "s1", .stationsUpdate ⟨"s1", none, none, some false, none, none⟩ "",
      .restartStation "s1" ""]
    (s.startStation "s1" "").1.configuration "s1" = (s.spawnAtBoot row).configuration "s1" ∧
      AsStored (runAll step ops s) := by
  have spawns : Spawns ⟨"s1", 1, 1, 0, "audio_only", 0⟩ "" (oneStation 0)
    ((oneStation 0).startStation "s1" "").1 := .start (by decide)
  have stored : AsStored (oneStation 0) := fun bc member => absurd member (Table.not_mem_empty bc)
  have law := @spawned_as_booted_iff (oneStation 0) _ "" _ (oneStation 0) spawns (by decide)
    (by decide) stored
  exact ⟨law.1.mpr rfl, law.2.2 _ (by decide)⟩

/-- A station for the timeline alone offers its chunks once it was restarted. -/
theorem restarted_offers_chunks :
    let s := (oneStation 1).initRegistry "s2"
    s.configuration "s1" = some ("audio_only", [.timelineSeed]) ∧
      (s.restartStation "s1" "").1.configuration "s1" =
        some ("audio_only", [.chunkStream, .timelineSeed]) ∧
      (s.restartStation "s1" "").1.stations.get "s1" =
        some ⟨"s1", 1, 1, 1, "audio_only", 0⟩ := by
  decide

end Tomb.Grimoire.Radio.Transports
