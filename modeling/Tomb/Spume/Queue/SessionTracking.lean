import Tomb.Spume.Queue.ServerSession

/-! Which playback sessions are left behind on the remotes. -/
namespace Tomb.Spume.Queue
open Lib

namespace ServerSessions

section Conditions

variable (s : ServerSessions)

def drops : ServerSessionOp → List String
  | .reach task false => match s.tasks[task]? with
    | some ⟨_, .abandon remoteId _, .reaching⟩ => [remoteId]
    | some ⟨_, .progress index, .reaching⟩ => (s.sessions[index]?).toList.map (·.remoteId)
    | _ => []
  | .answer task => match s.tasks[task]? with
    | some ⟨_, .create remoteId _, .answered (some _)⟩ => [remoteId]
    | some ⟨_, .abandon remoteId _, .answered _⟩ => [remoteId]
    | some ⟨_, .progress index, .answered _⟩ =>
      ((s.sessions[index]?).toList.filter fun session =>
        (session.itemIndices.length : Int) ≤ session.progress).map (·.remoteId)
    | _ => []
  | .proceed call => match s.calls[call]? with
    | some (.stopping _) => if s.settled call then s.remoteSessions.rows.map Prod.fst else []
    | some (.stopped (.resume _ remoteId _ _)) => [remoteId]
    | _ => []
  | _ => []

def droppable (remoteId : String) : Bool :=
  (s.held remoteId).all fun session => !s.live remoteId session.sessionId

def Task.awaited : Task → Option Nat
  | ⟨_, .progress index, .reaching⟩ => some index
  | _ => none

def listsFit (items : List MediaItem) : Bool :=
  s.tasks.all fun task => (Task.awaited task).all fun index =>
    (s.groupOf (groupItemsByRemote items) index).all fun group =>
      (s.sessions[index]?).all fun session => session.progress ≤ (group.length : Int)

def activates (task : Nat) : Bool :=
  match s.tasks[task]? with
  | some ⟨_, _, .sent (.updatePlaybackSessionStatus remoteId sessionId .active)⟩ =>
    (s.held remoteId).any (·.sessionId = sessionId)
  | _ => true

def fits (op : ServerSessionOp) : Bool :=
  (s.drops op).all s.droppable && match op with
    | .serve task _ _ => s.activates task
    | .updateServerSessionItems items => s.listsFit items
    | _ => true

end Conditions

/-- No session that is active on its remote is dropped or set active without being held, and no list
is cut below a progress that is about to be sent. -/
def Fits (op : ServerSessionOp) (s : ServerSessions) : Prop := s.fits op = true

instance (op : ServerSessionOp) (s : ServerSessions) : Decidable (Fits op s) :=
  inferInstanceAs (Decidable (_ = true))

variable (s : ServerSessions)

def Idle : Prop := (∀ phase ∈ s.calls, phase = .done) ∧ ∀ task ∈ s.tasks, task.stage = .done

instance : Decidable s.Idle := inferInstanceAs (Decidable (_ ∧ _))

def Holds (remoteId sessionId : String) : Prop :=
  ∃ session, s.held remoteId = some session ∧ session.sessionId = sessionId

/-- The session was created, and the answer is on its way. -/
def Arriving (remoteId sessionId : String) : Prop :=
  ∃ task ∈ s.tasks, ∃ indices, task.work = .create remoteId indices ∧
    task.stage = .answered (some sessionId)

structure Tracked : Prop where
  held : ∀ remoteId sessionId, s.live remoteId sessionId = true →
    s.Holds remoteId sessionId ∨ s.Arriving remoteId sessionId
  waiting : ∀ task ∈ s.tasks, ∀ index, Task.awaited task = some index →
    ∃ session, s.sessions[index]? = some session ∧ session.progress ≤ session.itemIndices.length
  sent : ∀ entry ∈ s.sent, entry.1 ≤ entry.2

variable {s} {next : ServerSessions}

def SameIds (s next : ServerSessions) : Prop :=
  ∀ (index : Nat) (session : RemoteSession), s.sessions[index]? = some session →
    ∃ session', next.sessions[index]? = some session' ∧ session'.sessionId = session.sessionId

theorem SameIds.of_eq (same : next.sessions = s.sessions) : SameIds s next := by
  intro index session there
  exact ⟨session, same ▸ there, rfl⟩

variable {remoteId : String}

theorem Holds.same {sessionId : String} (holds : s.Holds remoteId sessionId) (ids : SameIds s next)
    (entry : next.remoteSessions.get remoteId = s.remoteSessions.get remoteId) :
    next.Holds remoteId sessionId := by
  obtain ⟨session, held, named⟩ := holds
  obtain ⟨entry', found, there⟩ := Option.bind_eq_some_iff.mp held
  obtain ⟨session', there', same⟩ := ids _ _ there
  refine ⟨session', ?_, same.trans named⟩
  unfold ServerSessions.held
  rw [entry, found]
  exact there'

theorem not_droppable {sessionId : String} (holds : s.Holds remoteId sessionId)
    (live : s.live remoteId sessionId = true) : s.droppable remoteId = false := by
  obtain ⟨session, held, rfl⟩ := holds
  unfold droppable
  rw [held, Option.all_some, live]
  rfl

variable {index : Nat}

theorem Tracked.setStage (tracked : s.Tracked) {task : Task} {stage : Stage}
    (there : s.tasks[index]? = some task) (later : stage ≠ .reaching)
    (gained : ∀ remoteId indices created, task.work = .create remoteId indices →
      task.stage = .answered (some created) → s.live remoteId created = true →
      s.Holds remoteId created) : (s.setStage index stage).Tracked := by
  have member {task' : Task} (listed : task' ∈ (s.setStage index stage).tasks) :
      task' ∈ s.tasks ∨ task'.stage = stage := by
    obtain ⟨place, found⟩ := List.mem_iff_getElem?.mp listed
    simp only [ServerSessions.setStage, List.getElem?_modify] at found
    obtain ⟨old, known, rfl⟩ := Option.map_eq_some_iff.mp found
    split
    · exact .inr rfl
    · exact .inl (List.mem_of_getElem? known)
  have stays {task' : Task} (listed : task' ∈ s.tasks) (other : task' ≠ task) :
      task' ∈ (s.setStage index stage).tasks := by
    obtain ⟨place, found⟩ := List.mem_iff_getElem?.mp listed
    have elsewhere : index ≠ place := by
      rintro rfl
      exact other (Option.some.inj (found.symm.trans there))
    refine List.mem_iff_getElem?.mpr ⟨place, ?_⟩
    simp only [ServerSessions.setStage, List.getElem?_modify, if_neg elsewhere, found]
    rfl
  constructor
  · intro remoteId sessionId live
    rcases tracked.held remoteId sessionId live with
      holds | ⟨task', listed, indices, work, answered⟩
    · exact .inl holds
    · by_cases same : task' = task
      · subst same
        exact .inl (gained remoteId indices sessionId work answered live)
      · exact .inr ⟨task', stays listed same, indices, work, answered⟩
  · intro task' listed index' awaited
    rcases member listed with before | same
    · exact tracked.waiting task' before index' awaited
    · unfold Task.awaited at awaited
      split at awaited
      · exact absurd same.symm later
      · cases awaited
  · exact tracked.sent

/-- The usual case: the task was not about to hand over a new session. -/
theorem Tracked.moves (tracked : s.Tracked) {task : Task} {stage : Stage}
    (there : s.tasks[index]? = some task) (later : stage ≠ .reaching)
    (plain : ∀ created, task.stage ≠ .answered (some created)) : (s.setStage index stage).Tracked :=
  tracked.setStage there later fun _ _ created _ answered => absurd answered (plain created)

theorem Tracked.drop (tracked : s.Tracked)
    (droppable : s.droppable remoteId = true) : (s.drop remoteId).Tracked := by
  refine ⟨fun remoteId' sessionId live => ?_, tracked.waiting, tracked.sent⟩
  rcases tracked.held remoteId' sessionId live with holds | arriving
  · by_cases same : remoteId' = remoteId
    · subst same
      rw [not_droppable holds live] at droppable
      cases droppable
    · refine .inl (holds.same (SameIds.of_eq rfl) ?_)
      refine Table.get_deleteWhere_of_none _ _ _ fun entry named => ?_
      exact decide_eq_false fun wrong => same (named.symm.trans wrong)
  · exact .inr arriving

theorem Tracked.clear (tracked : s.Tracked)
    (droppable : (s.remoteSessions.rows.map Prod.fst).all s.droppable = true) :
    s.clear.Tracked := by
  refine ⟨fun remoteId sessionId live => ?_, tracked.waiting, tracked.sent⟩
  rcases tracked.held remoteId sessionId live with holds | arriving
  · have ⟨session, held, _⟩ := holds
    obtain ⟨entry, found, _⟩ := Option.bind_eq_some_iff.mp held
    obtain ⟨member, named⟩ := (Table.get_eq_some _ _ _).mp found
    have listed : remoteId ∈ s.remoteSessions.rows.map Prod.fst :=
      List.mem_map.mpr ⟨entry, member, named⟩
    have wrong := List.all_eq_true.mp droppable remoteId listed
    rw [not_droppable holds live] at wrong
    cases wrong
  · exact .inr arriving

theorem stays_held {session : RemoteSession} {old : RemoteSession}
    (there : s.sessions[index]? = some old) : (s.hold session).sessions[index]? = some old :=
  (List.getElem?_append_left (List.getElem?_eq_some_iff.mp there).1).trans there

theorem sameIds_hold (session : RemoteSession) : SameIds s (s.hold session) := by
  intro index old there
  exact ⟨old, stays_held there, rfl⟩

theorem holds_hold (session : RemoteSession) :
    (s.hold session).Holds session.remoteId session.sessionId := by
  refine ⟨session, ?_, rfl⟩
  unfold held
  show ((s.remoteSessions.upsert (session.remoteId, s.sessions.length)).get session.remoteId).bind
    _ = _
  rw [Table.get_upsert, if_pos rfl]
  exact List.getElem?_concat_length

theorem Tracked.hold (tracked : s.Tracked) {session : RemoteSession}
    (droppable : s.droppable session.remoteId = true) : (s.hold session).Tracked := by
  refine ⟨fun remoteId sessionId live => ?_, fun task listed index awaited => ?_, tracked.sent⟩
  · rcases tracked.held remoteId sessionId live with holds | arriving
    · by_cases same : remoteId = session.remoteId
      · subst same
        rw [not_droppable holds live] at droppable
        cases droppable
      · refine .inl (holds.same (sameIds_hold session) ?_)
        exact (Table.get_upsert ..).trans (if_neg same)
    · exact .inr arriving
  · obtain ⟨old, there, within⟩ := tracked.waiting task listed index awaited
    exact ⟨old, stays_held there, within⟩

theorem Tracked.append (tracked : s.Tracked) {tasks : List Task} {calls : List Call.Phase}
    (waiting : ∀ task ∈ tasks, ∀ index, Task.awaited task = some index →
      ∃ session, s.sessions[index]? = some session ∧
        session.progress ≤ session.itemIndices.length) :
    ({ s with tasks := s.tasks ++ tasks, calls := calls } : ServerSessions).Tracked := by
  refine ⟨fun remoteId sessionId live => ?_, fun task listed => ?_, tracked.sent⟩
  · rcases tracked.held remoteId sessionId live with holds | ⟨task, listed, rest⟩
    · exact .inl holds
    · exact .inr ⟨task, List.mem_append_left _ listed, rest⟩
  · rcases List.mem_append.mp listed with before | new
    · exact tracked.waiting task before
    · exact waiting task new

theorem Tracked.starts (tracked : s.Tracked) {owner : Nat} {work : List Work}
    {calls : List Call.Phase} (silent : ∀ index, .progress index ∉ work) :
    ({ s with
      tasks := s.tasks ++ work.map fun work => ⟨owner, work, .reaching⟩
      calls := calls } : ServerSessions).Tracked := by
  refine tracked.append fun task begun index awaited => ?_
  obtain ⟨work', listed, rfl⟩ := List.mem_map.mp begun
  unfold Task.awaited at awaited
  split at awaited
  · rename_i found same
    cases same
    exact absurd listed (silent found)
  · cases awaited

theorem Tracked.stopping (tracked : s.Tracked) (status : SessionStatus) (next : Next) :
    (s.stopping status next).Tracked := by
  unfold ServerSessions.stopping
  split
  · exact tracked.starts fun index => List.not_mem_nil
  · refine tracked.starts fun index listed => ?_
    obtain ⟨held, _, same⟩ := List.mem_map.mp listed
    cases same

theorem Tracked.resize (tracked : s.Tracked) {sessions : List RemoteSession}
    (ids : SameIds s { s with sessions := sessions })
    (within : ∀ task ∈ s.tasks, ∀ index, Task.awaited task = some index →
      ∃ session, sessions[index]? = some session ∧
        session.progress ≤ session.itemIndices.length) :
    ({ s with sessions := sessions } : ServerSessions).Tracked := by
  refine ⟨fun remoteId sessionId live => ?_, within, tracked.sent⟩
  rcases tracked.held remoteId sessionId live with holds | arriving
  · exact .inl (holds.same ids rfl)
  · exact .inr arriving

theorem Tracked.updateItems (tracked : s.Tracked) {items : List MediaItem}
    (lists : s.listsFit items = true) : (s.updateServerSessionItems items).Tracked := by
  unfold updateServerSessionItems
  split
  · exact tracked
  · refine Tracked.starts (tracked.resize ?_ ?_) fun index listed => ?_
    · intro index session there
      refine ⟨_, List.getElem?_mapIdx.trans (congrArg (Option.map _) there), ?_⟩
      dsimp only
      split <;> rfl
    · intro task listed index awaited
      obtain ⟨session, there, within⟩ := tracked.waiting task listed index awaited
      refine ⟨_, List.getElem?_mapIdx.trans (congrArg (Option.map _) there), ?_⟩
      have fits := List.all_eq_true.mp lists task listed
      rw [awaited, Option.all_some, there] at fits
      dsimp only
      split
      · rename_i group found
        rw [found] at fits
        exact of_decide_eq_true fits
      · exact within
    · obtain ⟨held, _, same⟩ := List.mem_map.mp listed
      split at same <;> cases same

theorem newProgress_within {queue : List MediaItem} {item : MediaItem}
    {progress : Int} (found : s.newProgress queue item = some (index, progress)) :
    ∃ session, s.sessions[index]? = some session ∧ progress ≤ session.itemIndices.length := by
  unfold newProgress at found
  simp only [Option.bind_eq_bind, Option.bind_eq_some_iff] at found
  obtain ⟨_, _, entry, _, session, there, globalIdx, _, localIdx, position, forward⟩ := found
  split at forward
  · cases forward
  · cases forward
    have less := (List.findIdx?_eq_some_iff_getElem.mp position).1
    exact ⟨session, there, by omega⟩

theorem Tracked.advance (tracked : s.Tracked) (queue : List MediaItem)
    (currentItem : Option MediaItem) : (s.advanceServerProgress queue currentItem).Tracked := by
  unfold advanceServerProgress
  split
  · rename_i index progress found
    obtain ⟨item, _, found⟩ := Option.bind_eq_some_iff.mp found
    obtain ⟨session, there, within⟩ := newProgress_within found
    let sessions := s.sessions.modify index fun session => { session with progress := progress }
    have at_ (place : Nat) : sessions[place]? = (s.sessions[place]?).map fun session =>
        if index = place then { session with progress := progress } else session :=
      List.getElem?_modify ..
    have advanced : ({ s with sessions := sessions } : ServerSessions).Tracked := by
      refine tracked.resize ?_ ?_
      · intro place old known
        refine ⟨_, (at_ place).trans (congrArg (Option.map _) known), ?_⟩
        split <;> rfl
      · intro task listed place awaited
        obtain ⟨old, known, kept⟩ := tracked.waiting task listed place awaited
        refine ⟨_, (at_ place).trans (congrArg (Option.map _) known), ?_⟩
        split
        · rename_i same
          subst same
          cases Option.some.inj (known.symm.trans there)
          exact within
        · exact kept
    refine advanced.append fun task begun place awaited => ?_
    obtain rfl := List.mem_singleton.mp begun
    cases awaited
    refine ⟨_, (at_ index).trans (congrArg (Option.map _) there), ?_⟩
    dsimp only
    rw [if_pos rfl]
    exact within
  · exact tracked

section Steps

variable {task owner : Nat} {work : Work} {stage : Stage}

theorem Tracked.reached (tracked : s.Tracked) (later : stage ≠ .reaching)
    (there : s.tasks[task]? = some ⟨owner, work, .reaching⟩) : (s.setStage task stage).Tracked :=
  tracked.moves there later fun _ => nofun

theorem Tracked.reach (tracked : s.Tracked) {resolved : Bool}
    (safe : (s.drops (.reach task resolved)).all s.droppable = true) :
    (s.reach task resolved).Tracked := by
  unfold ServerSessions.reach
  unfold drops at safe
  split
  · rename_i there
    split
    · exact tracked.reached nofun there
    · exact tracked.reached nofun there
  · rename_i there
    split
    · exact tracked.reached nofun there
    · exact tracked.reached nofun there
  · rename_i there
    split
    · exact tracked.reached nofun there
    · rename_i unresolved
      rw [Bool.eq_false_iff.mpr unresolved] at safe
      simp only [there, List.all_cons, List.all_nil, Bool.and_true] at safe
      exact (tracked.drop safe).reached nofun there
  · rename_i there
    split
    · exact tracked.reached nofun there
    · exact tracked.reached nofun there
  · rename_i there
    exact tracked.reached nofun there
  · rename_i index there
    split
    · rename_i session known
      split
      · have sent : ({ s with sent := s.sent ++ [(session.progress,
            session.itemIndices.length)] } : ServerSessions).Tracked := by
          refine ⟨tracked.held, tracked.waiting, fun entry listed => ?_⟩
          rcases List.mem_append.mp listed with before | last
          · exact tracked.sent entry before
          · obtain rfl := List.mem_singleton.mp last
            obtain ⟨session', known', within⟩ :=
              tracked.waiting _ (List.mem_of_getElem? there) index rfl
            cases Option.some.inj (known'.symm.trans known)
            exact within
        exact sent.reached nofun there
      · rename_i unresolved
        rw [Bool.eq_false_iff.mpr unresolved] at safe
        simp only [there, known, Option.toList_some, List.map_cons, List.map_nil, List.all_cons,
          List.all_nil, Bool.and_true] at safe
        exact (tracked.drop safe).reached nofun there
    · exact tracked
  · exact tracked

theorem Tracked.ends (tracked : s.Tracked) {created : Option String}
    (there : s.tasks[task]? = some ⟨owner, work, .answered created⟩)
    (plain : ∀ remoteId indices, work ≠ .create remoteId indices) :
    (s.setStage task .done).Tracked :=
  tracked.setStage there nofun fun remoteId indices _ same => absurd same (plain remoteId indices)

theorem Tracked.answer (tracked : s.Tracked)
    (safe : (s.drops (.answer task)).all s.droppable = true) : (s.answer task).Tracked := by
  unfold ServerSessions.answer
  unfold drops at safe
  split
  · rename_i remoteId indices created there
    simp only [there, List.all_cons, List.all_nil, Bool.and_true] at safe
    have held : (s.hold ⟨created, remoteId, indices, 0⟩).Tracked := tracked.hold safe
    refine held.setStage there nofun fun remoteId' indices' created' same answered _ => ?_
    cases same
    cases answered
    exact holds_hold _
  · rename_i there
    simp only [there, List.all_cons, List.all_nil, Bool.and_true] at safe
    exact (tracked.drop safe).ends there fun _ _ => nofun
  · rename_i index created there
    split
    · rename_i session known
      split
      · rename_i finished
        simp only [there, known, Option.toList_some, List.filter_cons, finished, decide_true,
          if_true, List.filter_nil, List.map_cons, List.map_nil, List.all_cons, List.all_nil,
          Bool.and_true] at safe
        exact (tracked.drop safe).ends there fun _ _ => nofun
      · exact tracked.ends there fun _ _ => nofun
    · exact tracked
  · rename_i owner work created other _ _ there
    refine tracked.setStage there nofun fun remoteId indices id same answered _ => ?_
    cases same
    cases answered
    exact (other remoteId indices id rfl rfl).elim
  · exact tracked

theorem Tracked.phase (tracked : s.Tracked) (call : Nat) (phase : Call.Phase) :
    (s.setPhase call phase).Tracked :=
  ⟨tracked.held, tracked.waiting, tracked.sent⟩

theorem Tracked.proceed (tracked : s.Tracked) {call : Nat}
    (safe : (s.drops (.proceed call)).all s.droppable = true) : (s.proceed call).Tracked := by
  unfold ServerSessions.proceed
  unfold drops at safe
  split
  · rename_i phase
    split
    · rename_i through
      simp only [phase, through, if_true] at safe
      exact (tracked.clear safe).phase call _
    · exact tracked
  · exact tracked.phase call _
  · refine (tracked.starts fun index listed => ?_).phase call _
    obtain ⟨group, _, same⟩ := List.mem_map.mp listed
    cases same
  · rename_i phase
    simp only [phase, List.all_cons, List.all_nil, Bool.and_true] at safe
    refine (Tracked.starts (tracked.hold safe) fun index listed => ?_).phase call _
    cases List.mem_singleton.mp listed
  · split
    · exact tracked.phase call _
    · exact tracked
  · exact tracked
  · exact tracked

variable {remoteId sessionId : String}

theorem live_iff : s.live remoteId sessionId = true ↔
    (remoteId, sessionId) ∈ s.begun ∧
      ∃ record ∈ s.records, record.key = (remoteId, sessionId) ∧ record.status = .active := by
  unfold live
  rw [decide_eq_true_iff]
  refine and_congr_right fun _ => ?_
  cases found : s.records.get (remoteId, sessionId) with
  | none =>
    have absent := (Table.get_eq_none _ _).mp found
    simp only [Option.any_none, Bool.false_eq_true, false_iff]
    rintro ⟨record, member, named, _⟩
    exact absent record member named
  | some record =>
    obtain ⟨member, named⟩ := (Table.get_eq_some _ _ _).mp found
    rw [Option.any_some, decide_eq_true_iff]
    constructor
    · intro active
      exact ⟨record, member, named, active⟩
    · rintro ⟨other, there, named', active⟩
      rw [s.records.eq_of_key_eq member there (named.trans named'.symm)]
      exact active

theorem live_change {f : PlaybackRecord → PlaybackRecord}
    {keeps : ∀ record, (f record).key = record.key}
    (inactive : ∀ record, (f record).status = .active → record.status = .active)
    {remoteId' sessionId' : String}
    (live : (s.change remoteId sessionId f keeps).live remoteId' sessionId' = true) :
    s.live remoteId' sessionId' = true := by
  obtain ⟨begun, record, there, named, active⟩ := live_iff.mp live
  obtain ⟨old, member, rfl⟩ := (Table.mem_update _ _ _ keeps _).mp there
  refine live_iff.mpr ⟨begun, old, member, ?_⟩
  split at named
  · rw [keeps] at named
    rename_i chosen
    rw [if_pos chosen] at active
    exact ⟨named, inactive old active⟩
  · rename_i passed
    rw [if_neg passed] at active
    exact ⟨named, active⟩

theorem autoComplete_active {record : PlaybackRecord}
    (active : record.autoComplete.status = .active) : record.status = .active := by
  unfold PlaybackRecord.autoComplete at active
  split at active
  · cases active
  · exact active

theorem Tracked.remote (tracked : s.Tracked) {records : Table PlaybackRecord.key}
    {begun : List (String × String)}
    (known : ∀ remoteId sessionId,
      ({ s with records := records, begun := begun } : ServerSessions).live remoteId sessionId =
          true → s.live remoteId sessionId = true ∨ s.Holds remoteId sessionId ∨
          s.Arriving remoteId sessionId) :
    ({ s with records := records, begun := begun } : ServerSessions).Tracked := by
  refine ⟨fun remoteId sessionId live => ?_, tracked.waiting, tracked.sent⟩
  rcases known remoteId sessionId live with before | new
  · exact tracked.held remoteId sessionId before
  · exact new

theorem Tracked.change (tracked : s.Tracked)
    {f : PlaybackRecord → PlaybackRecord} {keeps : ∀ record, (f record).key = record.key}
    (inactive : ∀ record, (f record).status = .active → record.status = .active) :
    (s.change remoteId sessionId f keeps).Tracked :=
  tracked.remote fun _ _ live => .inl (live_change inactive live)

theorem Tracked.setStatus (tracked : s.Tracked)
    {status : SessionStatus} (holds : status = .active → s.Holds remoteId sessionId) :
    (({ s with begun := if status = .active then s.begun ++ [(remoteId, sessionId)] else s.begun } :
      ServerSessions).change remoteId sessionId _ (setStatus_key status)).Tracked := by
  refine tracked.remote fun remoteId' sessionId' live => ?_
  obtain ⟨begun, record, there, named, active⟩ := live_iff.mp live
  obtain ⟨old, member, rfl⟩ := (Table.mem_update _ _ _ (setStatus_key status) _).mp there
  split at named
  · rename_i chosen
    have target : (remoteId, sessionId) = (remoteId', sessionId') :=
      (of_decide_eq_true chosen).symm.trans named
    cases target
    rw [if_pos chosen] at active
    have given : status = .active := by
      unfold PlaybackRecord.setStatus at active
      dsimp only at active
      split at active
      · cases active
      · exact active
    exact .inr (.inl (holds given))
  · rename_i passed
    rw [if_neg passed] at active
    refine .inl (live_iff.mpr ⟨?_, old, member, named, active⟩)
    have other : (remoteId', sessionId') ≠ (remoteId, sessionId) := by
      rintro same
      exact passed (decide_eq_true (named.trans same))
    dsimp only at begun
    split at begun
    · rcases List.mem_append.mp begun with before | last
      · exact before
      · exact absurd (List.mem_singleton.mp last) other
    · exact begun

theorem arriving_setStage {created : String} {indices : List Nat}
    (there : s.tasks[task]? = some ⟨owner, .create remoteId indices, stage⟩) :
    (s.setStage task (.answered (some created))).Arriving remoteId created := by
  refine ⟨⟨owner, .create remoteId indices, .answered (some created)⟩, ?_, indices, rfl, rfl⟩
  refine List.mem_iff_getElem?.mpr ⟨task, ?_⟩
  unfold ServerSessions.setStage
  rw [List.getElem?_modify, there]
  exact congrArg some (if_pos rfl)

theorem Tracked.create (tracked : s.Tracked) {fresh : String} {total : Nat}
    (made : s.create remoteId fresh total = some next) (arriving : s.Arriving remoteId fresh) :
    next.Tracked := by
  obtain ⟨records, inserted, rfl⟩ := Option.map_eq_some_iff.mp made
  refine tracked.remote fun remoteId' sessionId' live => ?_
  obtain ⟨begun, record, there, named, active⟩ := live_iff.mp live
  rcases (Table.insert_eq_some _ _ _ inserted record).mp there with before | rfl
  · obtain ⟨old, member, rfl⟩ := List.mem_map.mp before
    split at active
    · cases active
    · rename_i passed
      rw [if_neg passed] at named
      rcases List.mem_append.mp begun with older | last
      · exact .inl (live_iff.mpr ⟨older, old, member, named, active⟩)
      · cases List.mem_singleton.mp last
        exact .inr (.inr arriving)
  · cases named
    exact .inr (.inr arriving)

theorem Tracked.serve (tracked : s.Tracked) {fresh : String} {total : Nat}
    (activates : s.activates task = true) : (s.serve task fresh total).Tracked := by
  unfold ServerSessions.serve
  unfold ServerSessions.activates at activates
  split
  · rename_i remoteId indices _ there
    split
    · rename_i made
      have staged : (s.setStage task (.answered (some fresh))).Tracked :=
        tracked.moves there nofun fun _ => nofun
      obtain ⟨records, inserted, rfl⟩ := Option.map_eq_some_iff.mp made
      have made : (s.setStage task (.answered (some fresh))).create remoteId fresh total = some _ :=
        Option.map_eq_some_iff.mpr ⟨records, inserted, rfl⟩
      exact staged.create made (arriving_setStage there)
    · exact tracked
  · rename_i remoteId sessionId status there
    have holds : status = .active → s.Holds remoteId sessionId := by
      rintro rfl
      simp only [there] at activates
      cases found : s.held remoteId with
      | none =>
        rw [found] at activates
        cases activates
      | some session =>
        rw [found] at activates
        exact ⟨session, found, of_decide_eq_true activates⟩
    exact (tracked.setStatus holds).moves there nofun fun _ => nofun
  · rename_i there
    refine (tracked.change fun record active => ?_).moves there nofun fun _ => nofun
    unfold PlaybackRecord.setItems at active
    split at active
    · have before := autoComplete_active active
      exact before
    · exact active
  · rename_i there
    refine (tracked.change fun record active => ?_).moves there nofun fun _ => nofun
    unfold PlaybackRecord.setProgress at active
    split at active
    · exact active
    · have before := autoComplete_active active
      exact before
  · exact tracked

end Steps

theorem step_tracked (op : ServerSessionOp) (s : ServerSessions) (fits : Fits op s)
    (tracked : s.Tracked) : (step op s).Tracked := by
  obtain ⟨safe, rest⟩ := Bool.and_eq_true_iff.mp fits
  cases op with
  | createServerSessions items => exact tracked.stopping _ _
  | updateServerSessionItems items => exact tracked.updateItems rest
  | stopAllServerSessions status => exact tracked.stopping _ _
  | resumeServerSession sessionId remoteId progress items =>
    show ServerSessions.Tracked (if _ then _ else _)
    split
    · exact tracked
    · exact tracked.stopping _ _
  | advanceServerProgress queue item => exact tracked.advance queue item
  | reach task resolved => exact tracked.reach safe
  | serve task fresh total => exact tracked.serve rest
  | answer task => exact tracked.answer safe
  | proceed call => exact tracked.proceed safe

def reloaded (records : Table PlaybackRecord.key) : ServerSessions := { records := records }

theorem reloaded_tracked (records : Table PlaybackRecord.key) : (reloaded records).Tracked := by
  refine ⟨fun remoteId sessionId live => ?_, ?_, ?_⟩
  · cases (live_iff.mp live).1
  · exact fun task none => absurd none List.not_mem_nil
  · exact fun entry none => absurd none List.not_mem_nil

/-- When calls drop and activate sessions with care, the active sessions are those that are held
once nothing is in progress, one for each remote, and no progress is sent beyond the items. -/
theorem sessions_tracked (records : Table PlaybackRecord.key) (ops : List ServerSessionOp)
    (meets : Meets step Fits ops (reloaded records)) :
    let s := runAll step ops (reloaded records)
    (s.Idle → (∀ remoteId sessionId, s.live remoteId sessionId = true →
        s.Holds remoteId sessionId) ∧
      ∀ remoteId a b, s.live remoteId a = true → s.live remoteId b = true → a = b) ∧
      ∀ entry ∈ s.sent, entry.1 ≤ entry.2 := by
  intro s
  have tracked : s.Tracked := meets.keeps step_tracked (reloaded_tracked records)
  refine ⟨fun idle => ?_, tracked.sent⟩
  have holds (remoteId sessionId : String) (live : s.live remoteId sessionId = true) :
      s.Holds remoteId sessionId := by
    rcases tracked.held remoteId sessionId live with holds | ⟨task, there, _, _, answered⟩
    · exact holds
    · cases (idle.2 task there).symm.trans answered
  refine ⟨holds, fun remoteId a b liveA liveB => ?_⟩
  obtain ⟨session, held, rfl⟩ := holds remoteId a liveA
  obtain ⟨other, held', rfl⟩ := holds remoteId b liveB
  cases Option.some.inj (held.symm.trans held')
  rfl

def angst : MediaItem := ⟨"song:angst", some "r", true⟩

def money : MediaItem := ⟨"song:money", some "r", true⟩

def inTurn : List ServerSessionOp :=
  [.createServerSessions [angst, money], .proceed 0, .reach 0 true, .serve 0 "s1" 2, .answer 0,
    .proceed 0, .advanceServerProgress [angst, money] (some angst), .reach 1 true, .serve 1 "" 0,
    .answer 1, .proceed 1, .stopAllServerSessions ⟨.paused, by decide⟩, .reach 2 true,
    .serve 2 "" 0, .answer 2, .proceed 2, .proceed 2]

def crossing : List ServerSessionOp :=
  [.createServerSessions [angst], .createServerSessions [money], .proceed 0, .proceed 1,
    .reach 0 true, .reach 1 true, .serve 0 "s1" 1, .serve 1 "s2" 1, .answer 1, .answer 0,
    .proceed 0, .proceed 1]

def cut : List ServerSessionOp :=
  [.createServerSessions [angst, money], .proceed 0, .reach 0 true, .serve 0 "s1" 2, .answer 0,
    .proceed 0, .advanceServerProgress [angst, money] (some money),
    .updateServerSessionItems [money], .reach 1 true]

theorem sessions_tracked_in_turn :
    let s := runAll step inTurn (reloaded ∅)
    (s.Idle → (∀ remoteId sessionId, s.live remoteId sessionId = true →
        s.Holds remoteId sessionId) ∧
      ∀ remoteId a b, s.live remoteId a = true → s.live remoteId b = true → a = b) ∧
      ∀ entry ∈ s.sent, entry.1 ≤ entry.2 :=
  sessions_tracked ∅ inTurn (by decide)

/-- A session is left active that is not the one held, and a progress is beyond the items. -/
theorem session_orphaned :
    (runAll step crossing (reloaded ∅)).Idle ∧
      (runAll step crossing (reloaded ∅)).live "r" "s2" = true ∧
      ((runAll step crossing (reloaded ∅)).held "r").map (·.sessionId) = some "s1" ∧
      ∃ entry ∈ (runAll step cut (reloaded ∅)).sent, ¬entry.1 ≤ entry.2 := by
  decide

end ServerSessions

end Tomb.Spume.Queue
