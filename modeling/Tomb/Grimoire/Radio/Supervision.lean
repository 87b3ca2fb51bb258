import Tomb.Lib.Runs
import Tomb.Grimoire.Radio.Supervisor

/-! Any number of calls that start and stop stations, a step of one call at a time: which run tasks
are alive, which of them are recorded, and how many broadcasters there are. -/
namespace Tomb.Grimoire.Radio
open Tomb.Lib

namespace SupervisorCall

/-- The call is about to change what it has seen of a station: it starts a station that was not
registered, or it has to abort the task of a station that it has unregistered. -/
def concerns (stationId : String) : SupervisorCall → Bool
  | lookUp started => started = stationId
  | count started _ => started = stationId
  | findIdle started _ => started = stationId
  | spawn started _ => started = stationId
  | record task => task.stationId = stationId
  | unregister _ (.spawn started _) => started = stationId
  | abort stopped (.spawn started _) => stopped = stationId || started = stationId
  | abort stopped _ => stopped = stationId
  | _ => false

def counted (video : Bool) : SupervisorCall → Bool
  | findIdle _ contentMode => isVideoCapable contentMode = video
  | spawn _ contentMode => isVideoCapable contentMode = video
  | unregister _ (.spawn _ contentMode) => isVideoCapable contentMode = video
  | abort _ (.spawn _ contentMode) => isVideoCapable contentMode = video
  | _ => false

end SupervisorCall

namespace Supervisor

def Single (s : Supervisor) : Prop := (s.live.map (·.stationId)).Nodup

/-- Every live task is the one recorded for its station. -/
def Recorded (s : Supervisor) : Prop := ∀ task ∈ s.live, task ∈ s.tasks

def Limited (s : Supervisor) : Prop :=
  ∀ video, countGroup s.registry video ≤ s.cfg.limit video

/-- No call is between the spawning of a task and its recording. -/
def Settled (s : Supervisor) : Prop := ∀ task, .record task ∉ s.calls

/-- No call concerns the station of a row or has counted its group, unless it is registered. -/
def Free (s : Supervisor) (row : StationRow) : Prop :=
  isRegistered s.registry row.id = false → ∀ c ∈ s.calls, c.concerns row.id = false ∧
    c.counted (isVideoCapable row.contentMode) = false

instance (s : Supervisor) (row : StationRow) : Decidable (s.Free row) :=
  inferInstanceAs (Decidable (_ → _))

/-- When the next step of a call may happen: a broadcaster is put into the registry while no other
call concerns its station or has counted its group, and taken out of it while no other call concerns
its station. -/
def TimelyCall (i : Nat) (s : Supervisor) : SupervisorCall → Prop
  | .spawn stationId contentMode => ∀ other ∈ s.calls.eraseIdx i,
      other.concerns stationId = false ∧ other.counted (isVideoCapable contentMode) = false
  | .unregister stationId _ => isRegistered s.registry stationId = true →
      ∀ other ∈ s.calls.eraseIdx i, other.concerns stationId = false
  | .spawnAll rows => ∀ row ∈ rows, s.Free row
  | _ => True

instance (i : Nat) (s : Supervisor) : (c : SupervisorCall) → Decidable (TimelyCall i s c)
  | .spawn stationId contentMode => inferInstanceAs (Decidable (∀ other ∈ s.calls.eraseIdx i,
      other.concerns stationId = false ∧ other.counted (isVideoCapable contentMode) = false))
  | .unregister stationId _ => inferInstanceAs (Decidable (isRegistered s.registry stationId = true →
      ∀ other ∈ s.calls.eraseIdx i, other.concerns stationId = false))
  | .spawnAll rows => inferInstanceAs (Decidable (∀ row ∈ rows, s.Free row))
  | .listStations _ => .isTrue trivial
  | .check _ => .isTrue trivial
  | .lookUp _ => .isTrue trivial
  | .count _ _ => .isTrue trivial
  | .findIdle _ _ => .isTrue trivial
  | .record _ => .isTrue trivial
  | .abort _ _ => .isTrue trivial
  | .finished _ => .isTrue trivial

def Timely : SupervisorOp → Supervisor → Prop
  | .advance i _, s => ∀ c ∈ s.calls[i]?, TimelyCall i s c
  | _, _ => True

instance : (op : SupervisorOp) → (s : Supervisor) → Decidable (Timely op s)
  | .advance i _, s => inferInstanceAs (Decidable (∀ c ∈ s.calls[i]?, TimelyCall i s c))
  | .editStations _, _ => .isTrue trivial
  | .setListeners _ _, _ => .isTrue trivial
  | .initRegistry _, _ => .isTrue trivial
  | .startStation _, _ => .isTrue trivial
  | .stopStation _, _ => .isTrue trivial
  | .restartStation _, _ => .isTrue trivial

def Absent (reg : Broadcasters) (stationId : String) : Prop :=
  ∀ bc ∈ reg, bc.stationId ≠ stationId

def Present (reg : Broadcasters) (stationId : String) : Prop :=
  ∃ bc ∈ reg, bc.stationId = stationId

def Room (cfg : RadioConfig) (reg : Broadcasters) (video : Bool) : Prop :=
  countGroup reg video < cfg.limit video

def starting : SupervisorCall → Option String
  | .lookUp started => some started
  | .count started _ => some started
  | .findIdle started _ => some started
  | .spawn started _ => some started
  | .unregister _ (.spawn started _) => some started
  | .abort _ (.spawn started _) => some started
  | _ => none

def roomFor : SupervisorCall → Option Bool
  | .spawn _ contentMode => some (isVideoCapable contentMode)
  | .abort _ (.spawn _ contentMode) => some (isVideoCapable contentMode)
  | _ => none

def freeing : SupervisorCall → Option (String × Bool)
  | .unregister idle (.spawn _ contentMode) => some (idle, isVideoCapable contentMode)
  | _ => none

structure CallOk (cfg : RadioConfig) (reg : Broadcasters) (live : List RunTask)
    (c : SupervisorCall) : Prop where
  absent : ∀ started, starting c = some started → Absent reg started
  room : ∀ video, roomFor c = some video → Room cfg reg video
  freeing : ∀ idle video, freeing c = some (idle, video) →
    Room cfg reg video ∨ ∃ bc ∈ reg, bc.stationId = idle ∧ bc.isVideo = video
  record : ∀ task, c = .record task → Present reg task.stationId ∧
    ∀ other ∈ live, other.stationId = task.stationId → other = task

structure Consistent (s : Supervisor) : Prop where
  single : s.Single
  recorded : ∀ task ∈ s.live, task ∈ s.tasks ∨ .record task ∈ s.calls
  registered : ∀ task ∈ s.live, Present s.registry task.stationId ∨
    ∃ after, .abort task.stationId after ∈ s.calls
  limited : s.Limited
  calls : ∀ c ∈ s.calls, CallOk s.cfg s.registry s.live c

section Counts

variable {cfg : RadioConfig} {reg : Broadcasters} {bc : Running} {stationId : String}

theorem isRegistered_iff : isRegistered reg stationId = true ↔ Present reg stationId := by
  unfold isRegistered Present
  cases found : reg.get stationId with
  | none =>
    have absent := (Table.get_eq_none reg stationId).mp found
    simpa using absent
  | some bc =>
    have there := (Table.get_eq_some reg stationId bc).mp found
    simpa using ⟨bc, there⟩

theorem not_isRegistered (absent : isRegistered reg stationId = false) : Absent reg stationId := by
  intro bc there same
  have present : isRegistered reg stationId = true := isRegistered_iff.mpr ⟨bc, there, same⟩
  rw [absent] at present
  cases present

theorem countGroup_delete_le (p : Running → Bool) (video : Bool) :
    countGroup (reg.deleteWhere p) video ≤ countGroup reg video :=
  (List.filter_sublist.filter _).length_le

theorem countGroup_delete_lt {p : Running → Bool} (there : bc ∈ reg) (deleted : p bc = true) :
    countGroup (reg.deleteWhere p) bc.isVideo < countGroup reg bc.isVideo := by
  have member : bc ∈ reg.select fun other => other.isVideo = bc.isVideo :=
    (Table.mem_select _ _ _).mpr ⟨there, decide_eq_true rfl⟩
  have fewer : ((reg.deleteWhere p).select fun other => other.isVideo = bc.isVideo).Sublist
      (reg.select fun other => other.isVideo = bc.isVideo) := List.filter_sublist.filter _
  refine Nat.lt_of_le_of_ne fewer.length_le fun same => ?_
  rw [← fewer.eq_of_length same] at member
  have kept := ((Table.mem_deleteWhere _ _ _).mp ((Table.mem_select _ _ _).mp member).1).2
  rw [deleted] at kept
  cases kept

theorem countGroup_upsert (absent : Absent reg bc.stationId) (video : Bool) :
    countGroup (reg.upsert bc) video =
      countGroup reg video + if bc.isVideo = video then 1 else 0 := by
  have fresh : bc.stationId ∉ reg.rows.map (·.stationId) := by
    intro there
    obtain ⟨other, member, same⟩ := List.mem_map.mp there
    exact absent other member same
  unfold countGroup Table.select Table.upsert
  rw [dif_pos fresh, List.filter_append, List.length_append]
  congr 1
  by_cases same : bc.isVideo = video
  · simp only [List.filter_cons, List.filter_nil, same, decide_true, if_true, List.length_singleton]
  · simp only [List.filter_cons, List.filter_nil, same, decide_false, Bool.false_eq_true, if_false,
      List.length_nil]

theorem countGroup_update (p : Running → Bool) (listeners : Nat) (video : Bool) :
    countGroup (reg.update p (fun bc => { bc with listenerCount := listeners }) fun _ => rfl) video =
      countGroup reg video := by
  unfold countGroup Table.select Table.update
  rw [List.filter_map, List.length_map]
  refine congrArg List.length (List.filter_congr fun bc _ => ?_)
  simp only [Function.comp_apply]
  split <;> rfl

theorem present_update (present : Present reg stationId) (p : Running → Bool) (listeners : Nat) :
    Present (reg.update p (fun bc => { bc with listenerCount := listeners }) fun _ => rfl)
      stationId := by
  obtain ⟨bc, there, named⟩ := present
  refine ⟨_, (Table.mem_update _ _ _ _ _).mpr ⟨bc, there, rfl⟩, ?_⟩
  split <;> exact named

theorem mem_unregistered (stopped : String) (bc : Running) :
    bc ∈ reg.deleteWhere (fun bc => bc.stationId = stopped) ↔ bc ∈ reg ∧ bc.stationId ≠ stopped := by
  rw [Table.mem_deleteWhere, decide_eq_false_iff_not]

end Counts

section Calls

variable {cfg : RadioConfig} {reg : Broadcasters} {live live' : List RunTask} {c : SupervisorCall}

theorem concerns_starting {started : String} (starts : starting c = some started) :
    c.concerns started = true := by
  cases c with
  | unregister stopped after =>
    cases after <;> cases starts
    exact decide_eq_true rfl
  | abort stopped after =>
    cases after <;> cases starts
    exact Bool.or_eq_true_iff.mpr (.inr (decide_eq_true rfl))
  | _ => cases starts <;> exact decide_eq_true rfl

theorem concerns_abort (stationId : String) (after : AfterStop) :
    (SupervisorCall.abort stationId after).concerns stationId = true := by
  cases after with
  | spawn started contentMode => exact Bool.or_eq_true_iff.mpr (.inl (decide_eq_true rfl))
  | finish => exact decide_eq_true rfl
  | restart => exact decide_eq_true rfl

theorem counted_roomFor {video : Bool} (found : roomFor c = some video) :
    c.counted video = true := by
  cases c with
  | abort stopped after => (cases after <;> cases found); exact decide_eq_true rfl
  | _ => cases found <;> exact decide_eq_true rfl

theorem counted_freeing {idle : String} {video : Bool} (frees : freeing c = some (idle, video)) :
    c.counted video = true := by
  cases c with
  | unregister stopped after => (cases after <;> cases frees); exact decide_eq_true rfl
  | _ => cases frees

theorem CallOk.of_none (absent : starting c = none) (room : roomFor c = none)
    (freeing : Supervisor.freeing c = none) (record : ∀ task, c ≠ .record task) : CallOk cfg reg live c where
  absent _ starts := by rw [absent] at starts; cases starts
  room _ found := by rw [room] at found; cases found
  freeing _ _ frees := by rw [freeing] at frees; cases frees
  record task same := absurd same (record task)

theorem CallOk.of_starting {stationId : String} (absent : Absent reg stationId)
    (starts : starting c = some stationId) (room : roomFor c = none)
    (freeing : Supervisor.freeing c = none) (record : ∀ task, c ≠ .record task) :
    CallOk cfg reg live c where
  absent started starts' := by
    rw [starts] at starts'
    cases starts'
    exact absent
  room _ found := by rw [room] at found; cases found
  freeing _ _ frees := by rw [freeing] at frees; cases frees
  record task same := absurd same (record task)

theorem CallOk.fewer (ok : CallOk cfg reg live c) (fewer : ∀ task ∈ live', task ∈ live) :
    CallOk cfg reg live' c where
  absent := ok.absent
  room := ok.room
  freeing := ok.freeing
  record task same := ⟨(ok.record task same).1,
    fun other alive => (ok.record task same).2 other (fewer other alive)⟩

theorem CallOk.setListeners (ok : CallOk cfg reg live c) (stationId : String) (listeners : Nat) :
    CallOk cfg (reg.update (·.stationId = stationId)
      (fun bc => { bc with listenerCount := listeners }) fun _ => rfl) live c where
  absent started starts bc there := by
    obtain ⟨old, before, rfl⟩ := (Table.mem_update _ _ _ _ _).mp there
    have apart := ok.absent started starts old before
    split <;> exact apart
  room video found := by
    rw [Room, countGroup_update]
    exact ok.room video found
  freeing idle video frees := by
    rcases ok.freeing idle video frees with room | ⟨bc, there, same, group⟩
    · left
      rw [Room, countGroup_update]
      exact room
    · refine .inr ⟨_, (Table.mem_update _ _ _ _ _).mpr ⟨bc, there, rfl⟩, ?_⟩
      split <;> exact ⟨same, group⟩
  record task same := by
    obtain ⟨present, alone⟩ := ok.record task same
    exact ⟨present_update present _ _, alone⟩

theorem CallOk.unregister (ok : CallOk cfg reg live c) {stopped : String}
    (limited : ∀ video, countGroup reg video ≤ cfg.limit video)
    (apart : Present reg stopped → c.concerns stopped = false) :
    CallOk cfg (reg.deleteWhere fun bc => bc.stationId = stopped) live c where
  absent started starts bc there := ok.absent started starts bc ((mem_unregistered _ _).mp there).1
  room video found := (countGroup_delete_le _ video).trans_lt (ok.room video found)
  freeing idle video frees := by
    rcases ok.freeing idle video frees with room | ⟨bc, there, same, group⟩
    · exact .inl ((countGroup_delete_le _ video).trans_lt room)
    · by_cases taken : bc.stationId = stopped
      · left
        rw [← group]
        exact (countGroup_delete_lt there (decide_eq_true taken)).trans_le (limited _)
      · exact .inr ⟨bc, (mem_unregistered _ _).mpr ⟨there, taken⟩, same, group⟩
  record task same := by
    obtain ⟨⟨bc, there, named⟩, alone⟩ := ok.record task same
    refine ⟨⟨bc, (mem_unregistered _ _).mpr ⟨there, fun taken => ?_⟩, named⟩, alone⟩
    have free := apart ⟨bc, there, taken⟩
    have concerned : c.concerns stopped = true := by
      rw [same, ← taken, named]
      exact decide_eq_true rfl
    rw [free] at concerned
    cases concerned

theorem CallOk.unregistered {stopped : String} {next : AfterStop}
    (ok : CallOk cfg reg live (.unregister stopped next))
    (limited : ∀ video, countGroup reg video ≤ cfg.limit video) :
    CallOk cfg (reg.deleteWhere fun bc => bc.stationId = stopped) live (.abort stopped next) := by
  cases next with
  | finish => exact .of_none rfl rfl rfl fun _ => SupervisorCall.noConfusion
  | restart => exact .of_none rfl rfl rfl fun _ => SupervisorCall.noConfusion
  | spawn started contentMode =>
    refine ⟨fun station starts bc there => ?_, fun video found => ?_,
      fun _ _ frees => (nomatch frees), fun _ same => nomatch same⟩
    · exact ok.absent station starts bc ((mem_unregistered _ _).mp there).1
    · rcases ok.freeing stopped video (congrArg (fun group => group.map (stopped, ·)) found)
        with room | ⟨bc, there, named, group⟩
      · exact (countGroup_delete_le _ video).trans_lt room
      · rw [← group]
        exact (countGroup_delete_lt there (decide_eq_true named)).trans_le (limited _)

theorem CallOk.spawn (ok : CallOk cfg reg live c) {bc : Running} (absent : Absent reg bc.stationId)
    (apart : c.concerns bc.stationId = false ∧ c.counted bc.isVideo = false) (task : Nat) :
    CallOk cfg (reg.upsert bc) (live ++ [⟨bc.stationId, task⟩]) c where
  absent started starts other there := by
    rcases (Table.mem_upsert _ _ _).mp there with same | ⟨before, -⟩
    · intro named
      have concerned := concerns_starting starts
      rw [← named, same, apart.1] at concerned
      cases concerned
    · exact ok.absent started starts other before
  room video found := by
    have differs : bc.isVideo ≠ video := by
      intro same
      have counted := counted_roomFor found
      rw [← same, apart.2] at counted
      cases counted
    rw [Room, countGroup_upsert absent, if_neg differs]
    exact ok.room video found
  freeing idle video frees := by
    have differs : bc.isVideo ≠ video := by
      intro same
      have counted := counted_freeing frees
      rw [← same, apart.2] at counted
      cases counted
    rcases ok.freeing idle video frees with room | ⟨other, there, same, group⟩
    · left
      rw [Room, countGroup_upsert absent, if_neg differs]
      exact room
    · exact .inr ⟨other, (Table.mem_upsert _ _ _).mpr (.inr ⟨there, absent other there⟩), same, group⟩
  record recorded same := by
    obtain ⟨⟨other, there, named⟩, alone⟩ := ok.record recorded same
    have differs : recorded.stationId ≠ bc.stationId := by
      intro equal
      have concerned : c.concerns bc.stationId = true := by
        rw [same]
        exact decide_eq_true equal
      rw [apart.1] at concerned
      cases concerned
    refine ⟨⟨other, (Table.mem_upsert _ _ _).mpr (.inr ⟨there, absent other there⟩), named⟩, ?_⟩
    intro alive member equal
    rcases List.mem_append.mp member with before | last
    · exact alone alive before equal
    · rw [List.mem_singleton.mp last] at equal
      exact absurd equal.symm differs

end Calls

section Steps

variable {s : Supervisor} {i : Nat} {old new : SupervisorCall}

theorem calls_split (here : s.calls[i]? = some old) :
    (∀ c, c ∈ s.calls ↔ c = old ∨ c ∈ s.calls.eraseIdx i) ∧
      ∀ new c, c ∈ s.calls.set i new ↔ c = new ∨ c ∈ s.calls.eraseIdx i := by
  obtain ⟨within, same⟩ := List.getElem?_eq_some_iff.mp here
  have split : s.calls = s.calls.take i ++ old :: s.calls.drop (i + 1) := by
    rw [← same, List.getElem_cons_drop, List.take_append_drop]
  have others : s.calls.eraseIdx i = s.calls.take i ++ s.calls.drop (i + 1) :=
    List.eraseIdx_eq_take_drop_succ _ _
  constructor
  · intro c
    rw [others]
    nth_rewrite 1 [split]
    simp only [List.mem_append, List.mem_cons]
    exact or_left_comm
  · intro new c
    rw [others, List.set_eq_take_append_cons_drop, if_pos within]
    simp only [List.mem_append, List.mem_cons]
    exact or_left_comm

theorem Consistent.look (consistent : s.Consistent) (here : s.calls[i]? = some old)
    (noRecord : ∀ task, old ≠ .record task) (noAbort : ∀ stopped after, old ≠ .abort stopped after)
    (ok : CallOk s.cfg s.registry s.live new) : (s.goOn i new).Consistent := by
  obtain ⟨before, after⟩ := calls_split here
  refine ⟨consistent.single, fun task alive => ?_, fun task alive => ?_, consistent.limited,
    fun c member => ?_⟩
  · rcases consistent.recorded task alive with recorded | pending
    · exact .inl recorded
    · rcases (before _).mp pending with same | other
      · exact absurd same.symm (noRecord task)
      · exact .inr ((after new _).mpr (.inr other))
  · rcases consistent.registered task alive with present | ⟨next, pending⟩
    · exact .inl present
    · rcases (before _).mp pending with same | other
      · exact absurd same.symm (noAbort _ _)
      · exact .inr ⟨next, (after new _).mpr (.inr other)⟩
  · rcases (after new c).mp member with same | other
    · rw [same]
      exact ok
    · exact consistent.calls c ((before c).mpr (.inr other))

theorem Consistent.unregister (consistent : s.Consistent) {stopped : String} {next : AfterStop}
    (here : s.calls[i]? = some (.unregister stopped next))
    (apart : Present s.registry stopped →
      ∀ other ∈ s.calls.eraseIdx i, other.concerns stopped = false) :
    ((s.unregister stopped).goOn i (.abort stopped next)).Consistent := by
  obtain ⟨before, after⟩ := calls_split here
  have own := consistent.calls _ ((before _).mpr (.inl rfl))
  refine ⟨consistent.single, fun task alive => ?_, fun task alive => ?_, fun video => ?_,
    fun c member => ?_⟩
  · rcases consistent.recorded task alive with recorded | pending
    · exact .inl recorded
    · rcases (before _).mp pending with same | other
      · cases same
      · exact .inr ((after _ _).mpr (.inr other))
  · by_cases taken : task.stationId = stopped
    · rw [taken]
      exact .inr ⟨next, (after _ _).mpr (.inl rfl)⟩
    · rcases consistent.registered task alive with ⟨bc, there, named⟩ | ⟨other, pending⟩
      · exact .inl ⟨bc, (mem_unregistered _ _).mpr ⟨there, named ▸ taken⟩, named⟩
      · rcases (before _).mp pending with same | others
        · cases same
        · exact .inr ⟨other, (after _ _).mpr (.inr others)⟩
  · exact (countGroup_delete_le _ video).trans (consistent.limited video)
  · rcases (after _ c).mp member with same | other
    · rw [same]
      exact own.unregistered consistent.limited
    · exact (consistent.calls c ((before c).mpr (.inr other))).unregister consistent.limited
        fun present => apart present c other

theorem Consistent.abort (consistent : s.Consistent) {stopped : String} {next : AfterStop}
    (here : s.calls[i]? = some (.abort stopped next)) :
    ((s.abort stopped).goOn i (nextCall stopped next)).Consistent := by
  obtain ⟨before, after⟩ := calls_split here
  have own := consistent.calls _ ((before _).mpr (.inl rfl))
  have fewer : ∀ task ∈ (s.abort stopped).live, task ∈ s.live := by
    intro task alive
    unfold Supervisor.abort at alive
    simp only at alive
    split at alive
    · exact (List.mem_filter.mp alive).1
    · exact alive
  -- the station's recorded task, if there is one, is dead now
  have dead : ∀ task ∈ (s.abort stopped).live, task.stationId = stopped → task ∉ s.tasks := by
    intro task alive named recorded
    have found := (Table.get_eq_some s.tasks stopped task).mpr ⟨recorded, named⟩
    simp only [Supervisor.abort, found, ne_eq, decide_not, List.mem_filter, decide_true,
      Bool.not_true, Bool.false_eq_true, and_false] at alive
  refine ⟨?_, fun task alive => ?_, fun task alive => ?_, consistent.limited, fun c member => ?_⟩
  · have sublist : (s.abort stopped).live.Sublist s.live := by
      unfold Supervisor.abort
      simp only
      split
      · exact List.filter_sublist
      · exact .refl _
    exact consistent.single.sublist (sublist.map _)
  · rcases consistent.recorded task (fewer task alive) with recorded | pending
    · left
      refine (Table.mem_deleteWhere _ _ _).mpr ⟨recorded, decide_eq_false fun named => ?_⟩
      exact dead task alive named recorded
    · rcases (before _).mp pending with same | other
      · cases same
      · exact .inr ((after _ _).mpr (.inr other))
  · rcases consistent.registered task (fewer task alive) with present | ⟨later, pending⟩
    · exact .inl present
    · rcases (before _).mp pending with same | other
      · have named : task.stationId = stopped := by
          cases same
          rfl
        rcases consistent.recorded task (fewer task alive) with recorded | waits
        · exact absurd recorded (dead task alive named)
        · exact .inl ((consistent.calls _ waits).record task rfl).1
      · exact .inr ⟨later, (after _ _).mpr (.inr other)⟩
  · rcases (after _ c).mp member with same | other
    · rw [same]
      cases next with
      | finish => exact .of_none rfl rfl rfl fun _ => SupervisorCall.noConfusion
      | restart => exact .of_none rfl rfl rfl fun _ => SupervisorCall.noConfusion
      | spawn started contentMode =>
        exact ⟨own.absent, own.room, fun _ _ frees => (by cases frees), fun _ same => by cases same⟩
    · exact (consistent.calls c ((before c).mpr (.inr other))).fewer fewer

/-- No task of a station is alive that is neither registered nor concerns any call. -/
theorem Consistent.silent (consistent : s.Consistent) {stationId : String}
    (absent : Absent s.registry stationId) {calls : List SupervisorCall}
    (aborts : ∀ stopped next, .abort stopped next ∈ s.calls → .abort stopped next ∈ calls)
    (apart : ∀ c ∈ calls, c.concerns stationId = false) :
    ∀ task ∈ s.live, task.stationId ≠ stationId := by
  intro task alive named
  rcases consistent.registered task alive with ⟨bc, there, same⟩ | ⟨next, pending⟩
  · exact absent bc there (same.trans named)
  · have free := apart _ (aborts _ _ pending)
    rw [named, concerns_abort] at free
    cases free

theorem single_snoc {live : List RunTask} (single : (live.map (·.stationId)).Nodup) {task : RunTask}
    (silent : ∀ other ∈ live, other.stationId ≠ task.stationId) :
    ((live ++ [task]).map (·.stationId)).Nodup := by
  rw [List.map_append, List.nodup_append]
  refine ⟨single, by simp, fun stationId there last member same => ?_⟩
  obtain ⟨other, alive, named⟩ := List.mem_map.mp there
  rw [List.map_singleton, List.mem_singleton] at member
  exact silent other alive (named.trans (same.trans member))

theorem Consistent.spawn (consistent : s.Consistent) {started contentMode : String}
    (here : s.calls[i]? = some (.spawn started contentMode))
    (apart : ∀ other ∈ s.calls.eraseIdx i,
      other.concerns started = false ∧ other.counted (isVideoCapable contentMode) = false) :
    ((s.spawn started contentMode).goOn i (.record ⟨started, s.spawned⟩)).Consistent := by
  obtain ⟨before, after⟩ := calls_split here
  have own := consistent.calls _ ((before _).mpr (.inl rfl))
  have absent : Absent s.registry started := own.absent started rfl
  have silent : ∀ task ∈ s.live, task.stationId ≠ started := by
    refine consistent.silent absent (fun stopped next pending => ?_)
      fun c (member : c ∈ s.calls.eraseIdx i) => (apart c member).1
    rcases (before _).mp pending with same | other
    · cases same
    · exact other
  refine ⟨single_snoc consistent.single silent, fun task alive => ?_, fun task alive => ?_,
    fun video => ?_, fun c member => ?_⟩
  · rcases List.mem_append.mp alive with earlier | last
    · rcases consistent.recorded task earlier with recorded | pending
      · exact .inl recorded
      · rcases (before _).mp pending with same | other
        · cases same
        · exact .inr ((after _ _).mpr (.inr other))
    · rw [List.mem_singleton.mp last]
      exact .inr ((after _ _).mpr (.inl rfl))
  · rcases List.mem_append.mp alive with earlier | last
    · rcases consistent.registered task earlier with ⟨bc, there, named⟩ | ⟨next, pending⟩
      · exact .inl ⟨bc, (Table.mem_upsert _ _ _).mpr (.inr ⟨there, absent bc there⟩), named⟩
      · rcases (before _).mp pending with same | other
        · cases same
        · exact .inr ⟨next, (after _ _).mpr (.inr other)⟩
    · rw [List.mem_singleton.mp last]
      exact .inl ⟨_, (Table.mem_upsert _ _ _).mpr (.inl rfl), rfl⟩
  · change countGroup (s.registry.upsert ⟨started, contentMode, 0⟩) video ≤ s.cfg.limit video
    rw [countGroup_upsert absent]
    split
    · rename_i same
      have room : Room s.cfg s.registry video := own.room video (congrArg some same)
      exact room
    · exact consistent.limited video
  · rcases (after _ c).mp member with same | other
    · rw [same]
      refine ⟨fun _ starts => (nomatch starts), fun _ found => (nomatch found),
        fun _ _ frees => (nomatch frees), fun task same => ?_⟩
      cases same
      refine ⟨⟨_, (Table.mem_upsert _ _ _).mpr (.inl rfl), rfl⟩, fun task alive named => ?_⟩
      rcases List.mem_append.mp alive with earlier | last
      · exact absurd named (silent task earlier)
      · exact List.mem_singleton.mp last
    · have ok := consistent.calls c ((before c).mpr (.inr other))
      have absent : Absent s.registry (Running.mk started contentMode 0).stationId := absent
      exact ok.spawn absent (apart c other) s.spawned

theorem Consistent.record (consistent : s.Consistent) {task : RunTask}
    (here : s.calls[i]? = some (.record task)) :
    ((s.record task).goOn i (.finished .ok)).Consistent := by
  obtain ⟨before, after⟩ := calls_split here
  have alone := ((consistent.calls _ ((before _).mpr (.inl rfl))).record task rfl).2
  refine ⟨consistent.single, fun other alive => ?_, fun other alive => ?_, consistent.limited,
    fun c member => ?_⟩
  · by_cases named : other.stationId = task.stationId
    · rw [alone other alive named]
      exact .inl ((Table.mem_upsert _ _ _).mpr (.inl rfl))
    · rcases consistent.recorded other alive with recorded | pending
      · exact .inl ((Table.mem_upsert _ _ _).mpr (.inr ⟨recorded, named⟩))
      · rcases (before _).mp pending with same | others
        · cases same
          exact absurd rfl named
        · exact .inr ((after _ _).mpr (.inr others))
  · rcases consistent.registered other alive with present | ⟨next, pending⟩
    · exact .inl present
    · rcases (before _).mp pending with same | others
      · cases same
      · exact .inr ⟨next, (after _ _).mpr (.inr others)⟩
  · rcases (after _ c).mp member with same | other
    · rw [same]
      exact .of_none rfl rfl rfl fun _ => SupervisorCall.noConfusion
    · exact consistent.calls c ((before c).mpr (.inr other))

theorem Consistent.spawnAtBoot (consistent : s.Consistent) {row : StationRow} (free : s.Free row) :
    (s.spawnAtBoot row).Consistent := by
  unfold Supervisor.spawnAtBoot
  split
  · exact consistent
  · rename_i unregistered
    split
    · exact consistent
    · rename_i full
      have missing := eq_false_of_ne_true unregistered
      have absent := not_isRegistered missing
      have silent : ∀ task ∈ s.live, task.stationId ≠ row.id :=
        consistent.silent absent (fun _ _ pending => pending) fun c member => (free missing c member).1
      refine ⟨single_snoc consistent.single silent, fun task alive => ?_, fun task alive => ?_,
        fun video => ?_, fun c member => ?_⟩
      · rcases List.mem_append.mp alive with earlier | last
        · rcases consistent.recorded task earlier with recorded | pending
          · exact .inl ((Table.mem_upsert _ _ _).mpr (.inr ⟨recorded, silent task earlier⟩))
          · exact .inr pending
        · rw [List.mem_singleton.mp last]
          exact .inl ((Table.mem_upsert _ _ _).mpr (.inl rfl))
      · rcases List.mem_append.mp alive with earlier | last
        · rcases consistent.registered task earlier with ⟨bc, there, named⟩ | pending
          · exact .inl ⟨bc, (Table.mem_upsert _ _ _).mpr (.inr ⟨there, absent bc there⟩), named⟩
          · exact .inr pending
        · rw [List.mem_singleton.mp last]
          exact .inl ⟨_, (Table.mem_upsert _ _ _).mpr (.inl rfl), rfl⟩
      · change countGroup (s.registry.upsert ⟨row.id, row.contentMode, 0⟩) video ≤ s.cfg.limit video
        rw [countGroup_upsert absent]
        split
        · rename_i same
          have room := Nat.lt_of_not_le full
          have group : isVideoCapable row.contentMode = video := same
          rw [group] at room
          exact room
        · exact consistent.limited video
      · have absent : Absent s.registry (Running.mk row.id row.contentMode 0).stationId := absent
        exact (consistent.calls c member).spawn absent (free missing c member) s.spawned

theorem Free.spawnAtBoot {row : StationRow} (free : s.Free row) (first : StationRow) :
    (s.spawnAtBoot first).Free row := by
  unfold Supervisor.spawnAtBoot
  split
  · exact free
  · rename_i unregistered
    split
    · exact free
    · intro missing
      have absent := not_isRegistered missing
      refine free (eq_false_of_ne_true fun registered => ?_)
      obtain ⟨bc, there, named⟩ := isRegistered_iff.mp registered
      have before := not_isRegistered (eq_false_of_ne_true unregistered)
      exact absent bc ((Table.mem_upsert _ _ _).mpr (.inr ⟨there, before bc there⟩)) named

theorem Consistent.spawnAll (consistent : s.Consistent) {rows : List StationRow}
    (free : ∀ row ∈ rows, s.Free row) : (rows.foldl Supervisor.spawnAtBoot s).Consistent := by
  induction rows generalizing s with
  | nil => exact consistent
  | cons row rest ih =>
    refine ih (consistent.spawnAtBoot (free row (.head _))) fun other member => ?_
    exact (free other (.tail _ member)).spawnAtBoot row

theorem spawnAll_calls (rows : List StationRow) : (rows.foldl spawnAtBoot s).calls = s.calls := by
  induction rows generalizing s with
  | nil => rfl
  | cons row rest ih =>
    rw [List.foldl_cons, ih]
    unfold spawnAtBoot
    split
    · rfl
    · split <;> rfl

theorem Consistent.call (consistent : s.Consistent) {c : SupervisorCall}
    (ok : CallOk s.cfg s.registry s.live c) : (s.call c).Consistent := by
  refine ⟨consistent.single, fun task alive => ?_, fun task alive => ?_, consistent.limited,
    fun other member => ?_⟩
  · exact (consistent.recorded task alive).imp_right (List.mem_append_left _)
  · refine (consistent.registered task alive).imp_right fun ⟨next, pending⟩ => ?_
    exact ⟨next, List.mem_append_left _ pending⟩
  · rcases List.mem_append.mp member with before | last
    · exact consistent.calls other before
    · rw [List.mem_singleton.mp last]
      exact ok

theorem Consistent.setListeners (consistent : s.Consistent) (stationId : String)
    (listeners : Nat) : (s.step (.setListeners stationId listeners)).Consistent := by
  refine ⟨consistent.single, consistent.recorded, fun task alive => ?_, fun video => ?_,
    fun c member => (consistent.calls c member).setListeners stationId listeners⟩
  · exact (consistent.registered task alive).imp_left fun present => present_update present _ _
  · exact (countGroup_update _ listeners video).le.trans (consistent.limited video)

theorem Consistent.editStations (consistent : s.Consistent) (rows : List StationRow) :
    Consistent { s with stations := rows } :=
  ⟨consistent.single, consistent.recorded, consistent.registered, consistent.limited,
    consistent.calls⟩

theorem Consistent.advance (consistent : s.Consistent) {pick : String}
    (timely : Timely (.advance i pick) s) : (s.advance i pick).Consistent := by
  unfold Supervisor.advance
  cases here : s.calls[i]? with
  | none => exact consistent
  | some c =>
    have member : c ∈ s.calls := List.mem_of_getElem? here
    have own := consistent.calls c member
    cases c with
    | listStations seed =>
      exact (consistent.editStations _).look (i := i) here (fun _ => SupervisorCall.noConfusion)
        (fun _ _ => SupervisorCall.noConfusion)
        (.of_none rfl rfl rfl fun _ => SupervisorCall.noConfusion)
    | spawnAll rows =>
      have calls : (rows.foldl Supervisor.spawnAtBoot s).calls[i]? = some (.spawnAll rows) := by
        rw [spawnAll_calls]
        exact here
      exact (consistent.spawnAll (timely _ here)).look calls (fun _ => SupervisorCall.noConfusion)
        (fun _ _ => SupervisorCall.noConfusion)
        (.of_none rfl rfl rfl fun _ => SupervisorCall.noConfusion)
    | check stationId =>
      refine consistent.look here (fun _ => SupervisorCall.noConfusion)
        (fun _ _ => SupervisorCall.noConfusion) ?_
      split
      · exact .of_none rfl rfl rfl fun _ => SupervisorCall.noConfusion
      · rename_i unregistered
        exact .of_starting (not_isRegistered (eq_false_of_ne_true unregistered)) rfl rfl rfl
          fun _ => SupervisorCall.noConfusion
    | lookUp stationId =>
      have absent : Absent s.registry stationId := own.absent stationId rfl
      simp only
      split
      · exact consistent.look here (fun _ => SupervisorCall.noConfusion)
          (fun _ _ => SupervisorCall.noConfusion)
          (.of_none rfl rfl rfl fun _ => SupervisorCall.noConfusion)
      · refine consistent.look here (fun _ => SupervisorCall.noConfusion)
          (fun _ _ => SupervisorCall.noConfusion) ?_
        split
        · exact .of_none rfl rfl rfl fun _ => SupervisorCall.noConfusion
        · exact .of_starting absent rfl rfl rfl fun _ => SupervisorCall.noConfusion
    | count stationId contentMode =>
      have absent : Absent s.registry stationId := own.absent stationId rfl
      refine consistent.look here (fun _ => SupervisorCall.noConfusion)
        (fun _ _ => SupervisorCall.noConfusion) ?_
      split
      · exact .of_starting absent rfl rfl rfl fun _ => SupervisorCall.noConfusion
      · rename_i full
        refine ⟨fun started starts => ?_, fun video found => ?_,
          fun _ _ frees => (nomatch frees), fun _ same => nomatch same⟩
        · cases starts
          exact absent
        · cases found
          exact Nat.lt_of_not_le full
    | findIdle stationId contentMode =>
      have absent : Absent s.registry stationId := own.absent stationId rfl
      simp only
      split
      · exact consistent.look here (fun _ => SupervisorCall.noConfusion)
          (fun _ _ => SupervisorCall.noConfusion)
          (.of_none rfl rfl rfl fun _ => SupervisorCall.noConfusion)
      · split
        · rename_i found
          refine consistent.look here (fun _ => SupervisorCall.noConfusion)
            (fun _ _ => SupervisorCall.noConfusion) ?_
          refine ⟨fun started starts => ?_, fun _ found => (nomatch found),
            fun idle video frees => ?_, fun _ same => nomatch same⟩
          · cases starts
            exact absent
          · cases frees
            obtain ⟨bc, selected, named⟩ := List.mem_map.mp found
            obtain ⟨there, fits⟩ := (Table.mem_select _ _ _).mp selected
            simp only [Bool.and_eq_true, decide_eq_true_eq] at fits
            exact .inr ⟨bc, there, named, fits.1.2⟩
        · exact consistent
    | spawn stationId contentMode =>
      exact consistent.spawn here (timely _ here)
    | record task => exact consistent.record here
    | unregister stationId next =>
      exact consistent.unregister here fun present =>
        timely _ here (isRegistered_iff.mpr present)
    | abort stationId next => exact consistent.abort here
    | finished result => exact consistent

theorem Consistent.step (consistent : s.Consistent) (op : SupervisorOp) (timely : Timely op s) :
    (s.step op).Consistent := by
  cases op with
  | editStations rows => exact consistent.editStations rows
  | setListeners stationId listeners => exact consistent.setListeners stationId listeners
  | initRegistry seed =>
    exact consistent.call (.of_none rfl rfl rfl fun _ => SupervisorCall.noConfusion)
  | startStation stationId =>
    exact consistent.call (.of_none rfl rfl rfl fun _ => SupervisorCall.noConfusion)
  | stopStation stationId =>
    exact consistent.call (.of_none rfl rfl rfl fun _ => SupervisorCall.noConfusion)
  | restartStation stationId =>
    exact consistent.call (.of_none rfl rfl rfl fun _ => SupervisorCall.noConfusion)
  | advance i pick => exact consistent.advance timely

end Steps

theorem new_consistent (cfg : RadioConfig) (stations : List StationRow) :
    (new cfg stations).Consistent where
  single := .nil
  recorded _ none := nomatch none
  registered _ none := nomatch none
  limited _ := Nat.zero_le _
  calls _ none := nomatch none

def oneAfterTheOther : List SupervisorOp :=
  SupervisorOp.startStation "a" :: List.replicate 5 (SupervisorOp.advance 0 "") ++
    SupervisorOp.startStation "b" :: List.replicate 8 (SupervisorOp.advance 1 "a")

end Supervisor

end Tomb.Grimoire.Radio
