import Mathlib.Data.List.TakeWhile
import Tomb.Grimoire.Radio.Supervision

/-! Which running station is the default one. Its id is written once; an override is set when the
station with that id stops, and at no other time. The calls come one after the other here, each
with what it picks from the registry, whose order is open. -/
namespace Tomb.Grimoire.Radio
open Tomb.Lib Supervisor

structure RadioStations where
  cfg : RadioConfig
  rows : List StationRow
  registry : Broadcasters
  (defaultStationId defaultOverride : Option String)

/-- What a start does once it has seen the row, the registry and the limits. -/
inductive StartPlan where
  | answer (result : CallResult)
  | spawn (contentMode : String)
  | replace (idle contentMode : String)

inductive RadioStationsOp where
  | configure (cfg : RadioConfig)
  | editStations (rows : List StationRow)
  | setListeners (stationId : String) (listeners : Nat)
  | initRegistry (seed : StationRow)
  | startStation (stationId idle next : String)
  | stopStation (stationId next : String)
  | restartStation (stationId next idle nextIdle : String)
  | stopAll (order : List String) (next : String)

def someKey (first : String) (reg : Broadcasters) : Option String :=
  if isRegistered reg first then some first else reg.rows.head?.map (·.stationId)

namespace RadioStations

def new (cfg : RadioConfig) (rows : List StationRow) : RadioStations := ⟨cfg, rows, ∅, none, none⟩

def currentDefaultStationId (s : RadioStations) : Option String := s.defaultOverride.or s.defaultStationId

def getDefault (s : RadioStations) : Option Running := s.currentDefaultStationId.bind s.registry.get

def isRunning (stationId : String) (s : RadioStations) : Bool := isRegistered s.registry stationId

def setDefault (stationId : String) (s : RadioStations) : RadioStations :=
  { s with defaultStationId := s.defaultStationId.or (some stationId) }

def register (stationId contentMode : String) (s : RadioStations) : RadioStations :=
  { s with registry := s.registry.upsert ⟨stationId, contentMode, 0⟩ }

def stopStation (stationId next : String) (s : RadioStations) : RadioStations :=
  let registry := s.registry.deleteWhere fun bc => bc.stationId = stationId
  { s with
    registry := registry
    defaultOverride :=
      if s.defaultStationId = some stationId then someKey next registry else s.defaultOverride }

def startPlan (stationId idle : String) (s : RadioStations) : StartPlan :=
  if s.isRunning stationId then .answer .ok
  else match s.rows.find? (·.id = stationId) with
    | none => .answer .notFound
    | some row =>
      if row.isEnabled = 0 then .answer .disabled
      else
        let video := isVideoCapable row.contentMode
        if s.cfg.limit video ≤ countGroup s.registry video then
          match idleInGroup s.registry video stationId with
          | [] => .answer (.capReached video (s.cfg.limit video))
          | first :: rest => .replace (if idle ∈ first :: rest then idle else first) row.contentMode
        else .spawn row.contentMode

def startStation (stationId idle next : String) (s : RadioStations) : RadioStations × CallResult :=
  match s.startPlan stationId idle with
  | .answer result => (s, result)
  | .spawn contentMode => ((s.register stationId contentMode).setDefault stationId, .ok)
  | .replace idle contentMode =>
    (((s.stopStation idle next).register stationId contentMode).setDefault stationId, .ok)

def spawnAtBoot (s : RadioStations) (row : StationRow) : RadioStations :=
  if s.isRunning row.id then s
  else if s.cfg.limit (isVideoCapable row.contentMode) ≤
      countGroup s.registry (isVideoCapable row.contentMode) then s
  else s.register row.id row.contentMode

def seeded (seed : StationRow) (s : RadioStations) : List StationRow :=
  if s.rows.isEmpty then [seed] else s.rows

def enabledRows (seed : StationRow) (s : RadioStations) : List StationRow :=
  (s.seeded seed).filter (·.isEnabled ≠ 0)

def initRegistry (seed : StationRow) (s : RadioStations) : RadioStations :=
  let found := { s with rows := s.seeded seed }
  match s.enabledRows seed with
  | [] => found
  | first :: rest => (first :: rest).foldl spawnAtBoot (found.setDefault first.id)

def stopAll (order : List String) (next : String) (s : RadioStations) : RadioStations :=
  let ids := s.registry.rows.map (·.stationId)
  (if order.isPerm ids then order else ids).foldl (fun s id => s.stopStation id next) s

theorem heard_stationId (listeners : Nat) (bc : Running) :
    { bc with listenerCount := listeners }.stationId = bc.stationId := rfl

def step : RadioStationsOp → RadioStations → RadioStations
  | .configure cfg, s => { s with cfg := cfg }
  | .editStations rows, s => { s with rows := rows }
  | .setListeners stationId listeners, s => { s with
      registry := s.registry.update (·.stationId = stationId)
        (fun bc => { bc with listenerCount := listeners }) (heard_stationId listeners) }
  | .initRegistry seed, s => s.initRegistry seed
  | .startStation stationId idle next, s => (s.startStation stationId idle next).1
  | .stopStation stationId next, s => s.stopStation stationId next
  | .restartStation stationId next idle nextIdle, s =>
    ((s.stopStation stationId next).startStation stationId idle nextIdle).1
  | .stopAll order next, s => s.stopAll order next

/-- A stop of the station leaves a running default: it has the id that was written once, or it is
not the default, or no other station runs. -/
def HandsOver (stationId : String) (s : RadioStations) : Prop :=
  s.defaultStationId = some stationId ∨ s.currentDefaultStationId ≠ some stationId ∨
    ∀ bc ∈ s.registry.rows, bc.stationId = stationId

instance (stationId : String) (s : RadioStations) : Decidable (s.HandsOver stationId) :=
  inferInstanceAs (Decidable (_ ∨ _ ∨ ∀ bc ∈ s.registry.rows, _))

/-- The station may be the only one that runs: it is the default, or there is none. -/
def MayLead (stationId : String) (s : RadioStations) : Prop :=
  ∀ id ∈ s.currentDefaultStationId, id = stationId

instance (stationId : String) (s : RadioStations) : Decidable (s.MayLead stationId) :=
  inferInstanceAs (Decidable (∀ id ∈ s.currentDefaultStationId, id = stationId))

/-- A start leaves a running default: it starts nothing, or a station beside others, or the only one
that runs, which may be that. -/
def StartsWell (stationId : String) (s : RadioStations) : StartPlan → Prop
  | .answer _ => True
  | .spawn _ => s.registry.rows ≠ [] ∨ s.MayLead stationId
  | .replace idle _ => s.HandsOver idle ∧ ∃ bc ∈ s.registry.rows, bc.stationId ≠ idle

instance (stationId : String) (s : RadioStations) : (plan : StartPlan) →
    Decidable (s.StartsWell stationId plan)
  | .answer _ => .isTrue trivial
  | .spawn _ => inferInstanceAs (Decidable (s.registry.rows ≠ [] ∨ s.MayLead stationId))
  | .replace idle _ =>
    inferInstanceAs (Decidable (s.HandsOver idle ∧ ∃ bc ∈ s.registry.rows, bc.stationId ≠ idle))

/-- The boot finds a running station, or starts none, or has room for the default one when its turn
comes. -/
def BootsWell (seed : StationRow) (s : RadioStations) : Prop :=
  s.registry.rows ≠ [] ∨
  (∀ row ∈ s.enabledRows seed, s.cfg.limit (isVideoCapable row.contentMode) = 0) ∨
  ∃ row ∈ s.enabledRows seed,
    s.currentDefaultStationId.or ((s.enabledRows seed).head?.map (·.id)) = some row.id ∧
    ((s.enabledRows seed).takeWhile (· ≠ row)).countP
      (fun earlier => isVideoCapable earlier.contentMode = isVideoCapable row.contentMode) <
        s.cfg.limit (isVideoCapable row.contentMode)

instance (seed : StationRow) (s : RadioStations) : Decidable (s.BootsWell seed) :=
  inferInstanceAs (Decidable (_ ∨ (∀ row ∈ s.enabledRows seed, _) ∨ ∃ row ∈ s.enabledRows seed, _))

def Timely : RadioStationsOp → RadioStations → Prop
  | .initRegistry seed, s => s.BootsWell seed
  | .startStation stationId idle _, s => s.StartsWell stationId (s.startPlan stationId idle)
  | .stopStation stationId _, s => s.HandsOver stationId
  | .restartStation stationId next idle _, s => s.HandsOver stationId ∧
    (s.stopStation stationId next).StartsWell stationId
      ((s.stopStation stationId next).startPlan stationId idle)
  | _, _ => True

instance : (op : RadioStationsOp) → (s : RadioStations) → Decidable (Timely op s)
  | .initRegistry seed, s => inferInstanceAs (Decidable (s.BootsWell seed))
  | .startStation stationId idle _, s =>
    inferInstanceAs (Decidable (s.StartsWell stationId (s.startPlan stationId idle)))
  | .stopStation stationId _, s => inferInstanceAs (Decidable (s.HandsOver stationId))
  | .restartStation stationId next idle _, s => inferInstanceAs (Decidable (
      s.HandsOver stationId ∧ (s.stopStation stationId next).StartsWell stationId
        ((s.stopStation stationId next).startPlan stationId idle)))
  | .configure _, _ => .isTrue trivial
  | .editStations _, _ => .isTrue trivial
  | .setListeners _ _, _ => .isTrue trivial
  | .stopAll _ _, _ => .isTrue trivial

def HasDefault (s : RadioStations) : Prop := s.registry.rows ≠ [] → s.getDefault.isSome = true

instance (s : RadioStations) : Decidable s.HasDefault :=
  inferInstanceAs (Decidable (s.registry.rows ≠ [] → s.getDefault.isSome = true))

theorem isRegistered_iff (reg : Broadcasters) (stationId : String) :
    isRegistered reg stationId = true ↔ Present reg stationId := by
  rw [isRegistered, Option.isSome_iff_exists]
  constructor
  · rintro ⟨bc, found⟩
    obtain ⟨member, same⟩ := (Table.get_eq_some _ _ _).mp found
    exact ⟨bc, member, same⟩
  · rintro ⟨bc, member, same⟩
    exact ⟨bc, (Table.get_eq_some _ _ _).mpr ⟨member, same⟩⟩

theorem isSome_getDefault (s : RadioStations) : s.getDefault.isSome = true ↔
    ∃ id, s.currentDefaultStationId = some id ∧ Present s.registry id := by
  rw [getDefault]
  cases s.currentDefaultStationId with
  | none => simp
  | some id =>
    rw [Option.bind_some, ← isRegistered, isRegistered_iff]
    constructor
    · intro present
      exact ⟨id, rfl, present⟩
    · rintro ⟨other, same, present⟩
      cases same
      exact present

theorem present_of_someKey {first id : String} {reg : Broadcasters}
    (key : someKey first reg = some id) : Present reg id := by
  unfold someKey at key
  split at key
  · rename_i registered
    cases key
    exact (isRegistered_iff reg first).mp registered
  · obtain ⟨bc, head, rfl⟩ := Option.map_eq_some_iff.mp key
    exact ⟨bc, List.mem_of_head? head, rfl⟩

theorem someKey_isSome {reg : Broadcasters} (some_ : reg.rows ≠ []) (first : String) :
    ∃ id, someKey first reg = some id := by
  unfold someKey
  split
  · exact ⟨first, rfl⟩
  · cases rows : reg.rows with
    | nil => exact absurd rows some_
    | cons bc rest => exact ⟨bc.stationId, rfl⟩

theorem present_register (stationId contentMode id : String) (s : RadioStations) :
    Present (s.register stationId contentMode).registry id ↔
      id = stationId ∨ Present s.registry id := by
  constructor
  · rintro ⟨bc, member, rfl⟩
    rcases (Table.mem_upsert _ _ _).mp member with rfl | ⟨known, -⟩
    · exact .inl rfl
    · exact .inr ⟨bc, known, rfl⟩
  · intro present
    by_cases same : id = stationId
    · exact ⟨⟨stationId, contentMode, 0⟩, (Table.mem_upsert _ _ _).mpr (.inl rfl), same.symm⟩
    · obtain ⟨bc, known, rfl⟩ := present.resolve_left same
      exact ⟨bc, (Table.mem_upsert _ _ _).mpr (.inr ⟨known, same⟩), rfl⟩

theorem current_setDefault (stationId : String) (s : RadioStations) :
    (s.setDefault stationId).currentDefaultStationId =
      s.currentDefaultStationId.or (some stationId) := by
  rw [currentDefaultStationId, currentDefaultStationId, Option.or_assoc]
  rfl

theorem mem_stopStation (stationId next : String) (s : RadioStations) (bc : Running) :
    bc ∈ (s.stopStation stationId next).registry ↔ bc ∈ s.registry ∧ bc.stationId ≠ stationId := by
  rw [stopStation, Table.mem_deleteWhere, decide_eq_false_iff_not]

variable {stationId : String}

theorem hasDefault_stopStation {s : RadioStations} (has : s.HasDefault)
    (hands : s.HandsOver stationId) (next : String) :
    (s.stopStation stationId next).HasDefault := by
  intro left
  rw [isSome_getDefault]
  obtain ⟨bc, member⟩ := List.exists_mem_of_ne_nil _ left
  obtain ⟨known, other⟩ := (mem_stopStation stationId next s bc).mp member
  obtain ⟨id, current, present⟩ := (isSome_getDefault s).mp (has (List.ne_nil_of_mem known))
  by_cases written : s.defaultStationId = some stationId
  · obtain ⟨key, chosen⟩ := someKey_isSome left next
    refine ⟨key, ?_, present_of_someKey chosen⟩
    have override : (s.stopStation stationId next).defaultOverride = some key :=
      (if_pos written).trans chosen
    rw [currentDefaultStationId, override]
    rfl
  · have override : (s.stopStation stationId next).defaultOverride = s.defaultOverride :=
      if_neg written
    refine ⟨id, ?_, ?_⟩
    · rw [currentDefaultStationId, override]
      exact current
    · rcases hands with same | differs | only
      · exact absurd same written
      · obtain ⟨found, there, rfl⟩ := present
        exact ⟨found, (mem_stopStation _ _ _ _).mpr ⟨there, fun same => differs (same ▸ current)⟩, rfl⟩
      · exact absurd (only bc known) other

theorem hasDefault_start {s : RadioStations} (has : s.HasDefault)
    (well : s.registry.rows ≠ [] ∨ s.MayLead stationId) (contentMode : String) :
    ((s.register stationId contentMode).setDefault stationId).HasDefault := by
  intro _
  rw [isSome_getDefault, current_setDefault]
  rcases well with some_ | leads
  · obtain ⟨id, current, present⟩ := (isSome_getDefault s).mp (has some_)
    refine ⟨id, ?_, (present_register _ _ _ _).mpr (.inr present)⟩
    exact congrArg (·.or (some stationId)) current
  · refine ⟨stationId, ?_, (present_register _ _ _ _).mpr (.inl rfl)⟩
    change s.currentDefaultStationId.or (some stationId) = some stationId
    cases current : s.currentDefaultStationId with
    | none => rfl
    | some id => exact congrArg some (leads id current)

theorem hasDefault_startStation {idle : String} {s : RadioStations} (has : s.HasDefault)
    (well : s.StartsWell stationId (s.startPlan stationId idle)) (next : String) :
    (s.startStation stationId idle next).1.HasDefault := by
  unfold startStation
  cases plan : s.startPlan stationId idle with
  | answer result => exact has
  | spawn contentMode =>
    rw [plan] at well
    exact hasDefault_start has well contentMode
  | replace stopped contentMode =>
    rw [plan] at well
    obtain ⟨hands, bc, known, other⟩ := well
    have left : bc ∈ (s.stopStation stopped next).registry :=
      (mem_stopStation _ _ _ _).mpr ⟨known, other⟩
    exact hasDefault_start (hasDefault_stopStation has hands next)
      (.inl (List.ne_nil_of_mem left)) contentMode

/-- What a turn of the boot leaves: the default, the limits, and the running stations. -/
structure Boots (s after : RadioStations) : Prop where
  cfg : after.cfg = s.cfg
  current : after.currentDefaultStationId = s.currentDefaultStationId
  present : ∀ id, Present s.registry id → Present after.registry id

theorem Boots.trans {s mid after : RadioStations} (first : Boots s mid) (then_ : Boots mid after) :
    Boots s after where
  cfg := then_.cfg.trans first.cfg
  current := then_.current.trans first.current
  present id present := then_.present id (first.present id present)

theorem boots_spawnAtBoot (s : RadioStations) (row : StationRow) : Boots s (s.spawnAtBoot row) := by
  unfold spawnAtBoot
  split
  · exact ⟨rfl, rfl, fun _ => id⟩
  · split
    · exact ⟨rfl, rfl, fun _ => id⟩
    · exact ⟨rfl, rfl, fun id present => (present_register _ _ _ _).mpr (.inr present)⟩

theorem boots_foldl (rows : List StationRow) (s : RadioStations) : Boots s (rows.foldl spawnAtBoot s) := by
  induction rows generalizing s with
  | nil => exact ⟨rfl, rfl, fun _ => id⟩
  | cons row rows ih => exact (boots_spawnAtBoot s row).trans (ih _)

theorem absent_of_not_running {s : RadioStations}
    (idle : ¬ s.isRunning stationId = true) : Absent s.registry stationId :=
  fun bc member same => idle ((isRegistered_iff _ _).mpr ⟨bc, member, same⟩)

theorem countGroup_spawnAtBoot (s : RadioStations) (row : StationRow) (video : Bool) :
    countGroup (s.spawnAtBoot row).registry video ≤ countGroup s.registry video +
      if isVideoCapable row.contentMode = video then 1 else 0 := by
  unfold spawnAtBoot
  split
  · exact Nat.le_add_right _ _
  · rename_i idle
    split
    · exact Nat.le_add_right _ _
    · have absent : Absent s.registry (Running.mk row.id row.contentMode 0).stationId :=
        absent_of_not_running idle
      exact (countGroup_upsert absent video).le

theorem countGroup_foldl (rows : List StationRow) (s : RadioStations) (video : Bool) :
    countGroup (rows.foldl spawnAtBoot s).registry video ≤ countGroup s.registry video +
      rows.countP (fun row => isVideoCapable row.contentMode = video) := by
  induction rows generalizing s with
  | nil => exact Nat.le_refl _
  | cons row rows ih =>
    have here := countGroup_spawnAtBoot s row video
    have later := ih (s.spawnAtBoot row)
    rw [List.foldl_cons, List.countP_cons]
    simp only [decide_eq_true_eq]
    omega

theorem present_spawnAtBoot {s : RadioStations} {row : StationRow}
    (room : countGroup s.registry (isVideoCapable row.contentMode) <
      s.cfg.limit (isVideoCapable row.contentMode)) :
    Present (s.spawnAtBoot row).registry row.id := by
  unfold spawnAtBoot
  split
  · rename_i running
    exact (isRegistered_iff _ _).mp running
  · rw [if_neg (Nat.not_le.mpr room)]
    exact (present_register _ _ _ _).mpr (.inl rfl)

theorem present_foldl {rows : List StationRow} {s : RadioStations} {row : StationRow}
    (empty : s.registry.rows = []) (member : row ∈ rows)
    (room : (rows.takeWhile (· ≠ row)).countP
      (fun earlier => isVideoCapable earlier.contentMode = isVideoCapable row.contentMode) <
        s.cfg.limit (isVideoCapable row.contentMode)) :
    Present (rows.foldl spawnAtBoot s).registry row.id := by
  have whole : rows.takeWhile (· ≠ row) ++ rows.dropWhile (· ≠ row) = rows :=
    List.takeWhile_append_dropWhile
  cases later : rows.dropWhile (· ≠ row) with
  | nil =>
    have differs := List.dropWhile_eq_nil_iff.mp later row member
    exact absurd rfl (of_decide_eq_true differs)
  | cons first after =>
    have same : first = row := by
      have stops := List.head?_dropWhile_not (fun other => decide (other ≠ row)) rows
      rw [later] at stops
      exact not_not.mp (of_decide_eq_false stops)
    subst same
    rw [← whole, later, List.foldl_append, List.foldl_cons]
    refine (boots_foldl after _).present _ (present_spawnAtBoot ?_)
    have none_ : countGroup s.registry (isVideoCapable first.contentMode) = 0 := by
      rw [countGroup, Table.select, empty]
      rfl
    have counted := countGroup_foldl (rows.takeWhile (· ≠ first)) s
      (isVideoCapable first.contentMode)
    rw [(boots_foldl _ s).cfg]
    omega

theorem registry_foldl {rows : List StationRow} {s : RadioStations}
    (full : ∀ row ∈ rows, s.cfg.limit (isVideoCapable row.contentMode) = 0) :
    (rows.foldl spawnAtBoot s).registry = s.registry := by
  induction rows generalizing s with
  | nil => rfl
  | cons row rows ih =>
    have here : s.spawnAtBoot row = s := by
      unfold spawnAtBoot
      split
      · rfl
      · rw [if_pos]
        rw [full row List.mem_cons_self]
        exact Nat.zero_le _
    rw [List.foldl_cons, here]
    exact ih fun other member => full other (List.mem_cons_of_mem _ member)

theorem hasDefault_initRegistry {seed : StationRow} {s : RadioStations} (has : s.HasDefault)
    (well : s.BootsWell seed) : (s.initRegistry seed).HasDefault := by
  unfold initRegistry
  cases enabled : s.enabledRows seed with
  | nil => exact has
  | cons first rest =>
    intro some_
    let start : RadioStations := { s with rows := s.seeded seed }.setDefault first.id
    have boots : Boots start ((first :: rest).foldl spawnAtBoot start) := boots_foldl _ _
    have current : start.currentDefaultStationId =
        s.currentDefaultStationId.or (some first.id) := current_setDefault _ _
    rw [isSome_getDefault]
    change ∃ id, ((first :: rest).foldl spawnAtBoot start).currentDefaultStationId = some id ∧ _
    rw [boots.current, current]
    rcases well with running | full | ⟨row, member, leads, room⟩
    · obtain ⟨id, before, present⟩ := (isSome_getDefault s).mp (has running)
      exact ⟨id, congrArg (·.or (some first.id)) before, boots.present id present⟩
    · rw [enabled] at full
      have same : ((first :: rest).foldl spawnAtBoot start).registry = s.registry :=
        registry_foldl full
      have running : s.registry.rows ≠ [] := by
        rw [← same]
        exact some_
      obtain ⟨id, before, present⟩ := (isSome_getDefault s).mp (has running)
      exact ⟨id, congrArg (·.or (some first.id)) before, boots.present id present⟩
    · rw [enabled] at member leads room
      refine ⟨row.id, leads, ?_⟩
      by_cases empty : s.registry.rows = []
      · exact present_foldl empty member room
      · obtain ⟨id, before, present⟩ := (isSome_getDefault s).mp (has empty)
        have same : id = row.id := by
          rw [before] at leads
          exact Option.some.inj leads
        exact same ▸ boots.present id present

theorem registry_stopAll (ids : List String) (next : String) (s : RadioStations) (bc : Running) :
    bc ∈ (ids.foldl (fun s id => s.stopStation id next) s).registry ↔
      bc ∈ s.registry ∧ bc.stationId ∉ ids := by
  induction ids generalizing s with
  | nil => simp
  | cons id ids ih =>
    rw [List.foldl_cons, ih, mem_stopStation, List.mem_cons, not_or, and_assoc]

theorem hasDefault_stopAll (order : List String) (next : String) (s : RadioStations) :
    (s.stopAll order next).HasDefault := by
  intro some_
  obtain ⟨bc, member⟩ := List.exists_mem_of_ne_nil _ some_
  obtain ⟨known, spared⟩ := (registry_stopAll _ next s bc).mp member
  have listed : bc.stationId ∈ s.registry.rows.map (·.stationId) := List.mem_map_of_mem known
  split at spared
  · rename_i perm
    exact absurd ((List.isPerm_iff.mp perm).mem_iff.mpr listed) spared
  · exact absurd listed spared

theorem hasDefault_setListeners {s : RadioStations} (has : s.HasDefault) (stationId : String)
    (listeners : Nat) : (step (.setListeners stationId listeners) s).HasDefault := by
  intro some_
  have before : s.registry.rows ≠ [] := fun empty => some_ (by simp [step, Table.update, empty])
  obtain ⟨id, current, bc, member, rfl⟩ := (isSome_getDefault s).mp (has before)
  exact (isSome_getDefault _).mpr
    ⟨bc.stationId, current, present_update ⟨bc, member, rfl⟩ _ listeners⟩

theorem hasDefault_step {op : RadioStationsOp} {s : RadioStations} (timely : Timely op s)
    (has : s.HasDefault) : (step op s).HasDefault := by
  cases op with
  | configure cfg => exact has
  | editStations rows => exact has
  | setListeners stationId listeners => exact hasDefault_setListeners has stationId listeners
  | initRegistry seed => exact hasDefault_initRegistry has timely
  | startStation stationId idle next => exact hasDefault_startStation has timely next
  | stopStation stationId next => exact hasDefault_stopStation has timely next
  | restartStation stationId next idle nextIdle =>
    exact hasDefault_startStation (hasDefault_stopStation has timely.1 next) timely.2 nextIdle
  | stopAll order next => exact hasDefault_stopAll order next s

/-- In every run whose calls are timely, the default station runs whenever a station does. -/
theorem default_runs (cfg : RadioConfig) (rows : List StationRow) (ops : List RadioStationsOp)
    (timely : Meets step Timely ops (new cfg rows)) :
    (runAll step ops (new cfg rows)).HasDefault := by
  have start : (new cfg rows).HasDefault := fun some_ => absurd rfl some_
  exact timely.keeps (fun _ _ timely has => hasDefault_step timely has) start

def threeStations : List StationRow :=
  [⟨"video", 1, "video_only"⟩, ⟨"jazz", 1, "audio_only"⟩, ⟨"news", 1, "audio_only"⟩]

def seedStation : StationRow := ⟨"freqhole radio", 1, "audio_only"⟩

/-- The default is stopped and restarted beside another station, and takes its turn as the only one. -/
def timelyCalls : List RadioStationsOp :=
  [.initRegistry seedStation, .stopStation "video" "jazz", .startStation "video" "" "",
    .stopStation "news" "", .restartStation "video" "jazz" "" "", .stopAll ["jazz", "video"] "",
    .startStation "video" "" "", .startStation "jazz" "" ""]

theorem timelyCalls_default_runs :
    (runAll step timelyCalls (new ⟨2, 1⟩ threeStations)).HasDefault :=
  default_runs ⟨2, 1⟩ threeStations timelyCalls (by decide)

/-- The promoted default stops while another station runs; the only station stops and another one
starts; and the first enabled station has no room at boot. -/
theorem default_lost :
    ¬ (runAll step [.initRegistry seedStation, .stopStation "video" "jazz", .stopStation "jazz" ""]
      (new ⟨2, 1⟩ threeStations)).HasDefault ∧
    ¬ (runAll step [.startStation "jazz" "" "", .stopStation "jazz" "", .startStation "news" "" ""]
      (new ⟨2, 1⟩ threeStations)).HasDefault ∧
    ¬ (runAll step [.initRegistry seedStation] (new ⟨2, 0⟩ threeStations)).HasDefault := by
  refine ⟨?_, ?_, ?_⟩
  · decide
  · decide
  · decide

end RadioStations

end Tomb.Grimoire.Radio
