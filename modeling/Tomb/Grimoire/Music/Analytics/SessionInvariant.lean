import Tomb.Grimoire.Music.Analytics.SessionTriggers

/-! What holds of the playback sessions whenever no statement is running. -/
namespace Tomb.Grimoire.Music.Analytics
open Lib PlaybackSession

structure RowKept (row : PlaybackSession) : Prop where
  nonnegative : 0 ≤ row.itemsCompleted
  within : row.itemsCompleted ≤ row.totalItems
  counted : row.totalItems = row.items.length
  unplayed : row.Open → ¬row.Played

namespace Sessions

structure Kept (s : Sessions) : Prop where
  rows : ∀ row ∈ s.playbackSessionz, RowKept row
  /-- A completed session stays so while its items are the same. -/
  finished : ∀ row ∈ s.playbackSessionz, row.id ∈ s.finished → ¬row.Open
  oneActive : ∀ a ∈ s.playbackSessionz, ∀ b ∈ s.playbackSessionz, a.userId = b.userId →
    a.status = .active → b.status = .active → a = b

/-- What becomes of a session in a step that may activate the session with this id. -/
structure Follows (s : Sessions) (activated : String) (old new : PlaybackSession) : Prop where
  id : new.id = old.id
  user : new.userId = old.userId
  kept : RowKept new
  forward : new.itemsCompleted < old.itemsCompleted → new.items.length < old.items.length
  stays : old.id ∈ s.finished → ¬new.Open
  active : new.status = .active → old.status = .active ∨ old.id = activated ∧
    ∀ other ∈ s.playbackSessionz, other.userId = old.userId → other.status = .active →
      other.id = old.id

/-- Items are uncompleted only when a shorter list is stored. -/
def Forward (s next : Sessions) : Prop :=
  ∀ old ∈ s.playbackSessionz, ∀ new ∈ next.playbackSessionz, new.id = old.id →
    new.itemsCompleted < old.itemsCompleted → new.items.length < old.items.length

theorem Follows.refl {s : Sessions} (kept : Kept s) {row : PlaybackSession}
    (there : row ∈ s.playbackSessionz) (activated : String) : Follows s activated row row :=
  ⟨rfl, rfl, kept.rows row there, fun less => absurd less (Int.lt_irrefl _),
    kept.finished row there, .inl⟩

def noting (s next : Sessions) : Sessions :=
  { next with finished := (next.playbackSessionz.select s.finishes).map (·.id) }

variable {next : Sessions}

theorem mem_noting {s : Sessions} {row : PlaybackSession}
    (there : row ∈ next.playbackSessionz) (noted : row.id ∈ (noting s next).finished) :
    s.finishes row = true := by
  obtain ⟨other, member, same⟩ := List.mem_map.mp noted
  obtain ⟨present, finishes⟩ := (Table.mem_select ..).mp member
  rw [next.playbackSessionz.eq_of_key_eq there present same.symm]
  exact finishes

variable {activated : String}

theorem Follows.unfinished {s : Sessions} {old new : PlaybackSession}
    (follows : Follows s activated old new) (there : new ∈ next.playbackSessionz)
    (noted : new.id ∈ (noting s next).finished) : ¬new.Open := by
  rcases of_decide_eq_true (mem_noting there noted) with completed | ⟨before, _⟩
  · unfold Open
    rw [completed]
    rintro (wrong | wrong) <;> cases wrong
  · rw [follows.id] at before
    exact follows.stays before

theorem Kept.activeFollows {s : Sessions} (kept : Kept s)
    {a a' b b' : PlaybackSession} (thereA : a ∈ s.playbackSessionz)
    (thereB : b ∈ s.playbackSessionz) (followsA : Follows s activated a a')
    (followsB : Follows s activated b b') (user : a'.userId = b'.userId)
    (activeA : a'.status = .active) (activeB : b'.status = .active) : a'.id = b'.id := by
  have users : a.userId = b.userId := by rw [← followsA.user, ← followsB.user, user]
  rw [followsA.id, followsB.id]
  rcases followsA.active activeA with wasA | ⟨nowA, aloneA⟩
  · rcases followsB.active activeB with wasB | ⟨_, aloneB⟩
    · exact congrArg PlaybackSession.id (kept.oneActive a thereA b thereB users wasA wasB)
    · exact aloneB a thereA users wasA
  · rcases followsB.active activeB with wasB | ⟨nowB, _⟩
    · exact (aloneA b thereB users.symm wasB).symm
    · exact nowA.trans nowB.symm

theorem Follows.forwards {s : Sessions} {old other new : PlaybackSession}
    (there : old ∈ s.playbackSessionz) (there' : other ∈ s.playbackSessionz)
    (follows : Follows s activated other new) (same : new.id = old.id) :
    new.itemsCompleted < old.itemsCompleted → new.items.length < old.items.length := by
  rw [s.playbackSessionz.eq_of_key_eq there there' (same.symm.trans follows.id)]
  exact follows.forward

theorem Kept.follows {s : Sessions} (kept : Kept s)
    (each : ∀ new ∈ next.playbackSessionz, ∃ old ∈ s.playbackSessionz,
      Follows s activated old new) : Kept (noting s next) ∧ Forward s next := by
  refine ⟨⟨fun new there => ?_, fun new there noted => ?_, ?_⟩, fun old there new later same => ?_⟩
  · obtain ⟨old, _, follows⟩ := each new there
    exact follows.kept
  · obtain ⟨old, _, follows⟩ := each new there
    exact follows.unfinished there noted
  · intro a first b second user activeA activeB
    obtain ⟨a', thereA, followsA⟩ := each a first
    obtain ⟨b', thereB, followsB⟩ := each b second
    exact next.playbackSessionz.eq_of_key_eq first second
      (kept.activeFollows thereA thereB followsA followsB user activeA activeB)
  · obtain ⟨other, there', follows⟩ := each new later
    exact follows.forwards there there' same

end Sessions

theorem RowKept.of_outcome {new made : PlaybackSession} (reads : new.reading = made.outcome)
    (nonnegative : 0 ≤ made.itemsCompleted) (counted : made.totalItems = made.items.length) :
    RowKept new := by
  have items : new.items = made.items := congrArg Reading.items reads
  have total : new.totalItems = made.totalItems := congrArg Reading.totalItems reads
  have completed : new.itemsCompleted = min made.itemsCompleted made.totalItems :=
    congrArg Reading.itemsCompleted reads
  refine ⟨by omega, by omega, by rw [total, counted, items], fun isOpen played => ?_⟩
  have closed := outcome_of_reading reads
  rw [outcome_played isOpen played, ← reads] at closed
  have status : PlaybackSessionStatus.completed = new.status := congrArg Reading.status closed
  unfold Open at isOpen
  rw [← status] at isOpen
  rcases isOpen with wrong | wrong <;> cases wrong

theorem status_of_open {new made : PlaybackSession} (reads : new.reading = made.outcome)
    (isOpen : new.Open) : new.status = made.status ∧ ¬(made.Open ∧ made.Played) := by
  have status : new.status = made.outcome.status := congrArg Reading.status reads
  unfold outcome at status
  dsimp only at status
  split at status
  · unfold Open at isOpen
    rw [status] at isOpen
    rcases isOpen with wrong | wrong <;> cases wrong
  · rename_i still
    exact ⟨status, still⟩

namespace Sessions

variable {s : Sessions} {order : TriggerOrder} {now : Int} {p : PlaybackSession → Bool}
    {change : RowChange PlaybackSession Column} {keeps : ∀ row, (change.apply row).id = row.id}
    {activated : String}

theorem Kept.updateWhere (kept : Kept s) (activated : String)
    (each : ∀ row ∈ s.playbackSessionz, p row = true →
      Follows s activated row (updated order now change row)) :
    Kept (noting s (s.updateWhere order now p change keeps)) ∧
      Forward s (s.updateWhere order now p change keeps) := by
  apply kept.follows
  intro new there
  obtain ⟨old, known, rfl⟩ := (Table.mem_update _ _ _ (updated_id order now keeps) _).mp there
  refine ⟨old, known, ?_⟩
  split
  · rename_i chosen
    exact each old known chosen
  · exact Follows.refl kept known activated

/-- What an update must do to a row for the session to follow from it. -/
structure Fair (s : Sessions) (activated : String) (row made : PlaybackSession) : Prop where
  user : made.userId = row.userId
  nonnegative : 0 ≤ made.itemsCompleted
  counted : made.totalItems = made.items.length
  forward : min made.itemsCompleted made.totalItems < row.itemsCompleted →
    made.items.length < row.items.length
  stays : row.id ∈ s.finished → made.Open → made.Played
  active : made.status = .active → made.Played ∨ row.status = .active ∨ row.id = activated ∧
    ∀ other ∈ s.playbackSessionz, other.userId = row.userId → other.status = .active →
      other.id = row.id

variable {row : PlaybackSession}

theorem Fair.follows (fair : Fair s activated row (change.apply row))
    (keeps : ∀ row, (change.apply row).id = row.id)
    (counts : (change.apply row).totalItems < (change.apply row).itemsCompleted →
      .totalItems ∈ change.sets) (completes : Completes change row) :
    Follows s activated row (updated order now change row) := by
  have reads : (updated order now change row).reading = (change.apply row).outcome :=
    updated_reading order counts completes
  have items : (updated order now change row).items = (change.apply row).items :=
    congrArg Reading.items reads
  have completed : (updated order now change row).itemsCompleted =
      min (change.apply row).itemsCompleted (change.apply row).totalItems :=
    congrArg Reading.itemsCompleted reads
  constructor
  · exact updated_id order now keeps row
  · exact (congrArg Reading.userId reads).trans fair.user
  · exact RowKept.of_outcome reads fair.nonnegative fair.counted
  · rw [completed, items]
    exact fair.forward
  · intro finished isOpen
    obtain ⟨status, still⟩ := status_of_open reads isOpen
    have madeOpen : (change.apply row).Open := by
      unfold Open at isOpen
      rw [status] at isOpen
      exact isOpen
    exact still ⟨madeOpen, fair.stays finished madeOpen⟩
  · intro active
    obtain ⟨status, still⟩ := status_of_open reads (.inl active)
    have madeActive : (change.apply row).status = .active := status.symm.trans active
    exact (fair.active madeActive).resolve_left fun played => still ⟨.inl madeActive, played⟩

section Statements

variable {row : PlaybackSession} (kept : Kept s) (there : row ∈ s.playbackSessionz)

include kept there

theorem follows_progress {progress : Int} (within : progress ≤ row.totalItems) :
    Follows s activated row (updated order now (setProgress progress now) row) := by
  have rowKept := kept.rows row there
  have least : max row.itemsCompleted progress ≤ row.totalItems :=
    Int.max_le.mpr ⟨rowKept.within, within⟩
  have fair : Fair s activated row ((setProgress progress now).apply row) := by
    constructor
    · rfl
    · exact Int.le_trans rowKept.nonnegative (Int.le_max_left ..)
    · exact rowKept.counted
    · intro less
      have kept : row.itemsCompleted ≤ min (max row.itemsCompleted progress) row.totalItems :=
        Int.le_min.mpr ⟨Int.le_max_left .., rowKept.within⟩
      exact absurd less (Int.not_lt.mpr kept)
    · intro finished isOpen
      exact absurd isOpen (kept.finished row there finished)
    · intro active
      exact .inr (.inl active)
  exact fair.follows (fun _ => rfl) (fun beyond => absurd least (Int.not_le.mpr beyond))
    fun _ _ => .inr (.inl List.mem_cons_self)

theorem fair_status {status : PlaybackSessionStatus} {updatedAt : Int}
    (stays : row.id ∈ s.finished → status = .active ∨ status = .paused → row.Played)
    (active : status = .active → row.Played ∨ row.status = .active ∨ row.id = activated ∧
      ∀ other ∈ s.playbackSessionz, other.userId = row.userId → other.status = .active →
        other.id = row.id) :
    Fair s activated row { row with status := status, updatedAt := updatedAt } := by
  have rowKept := kept.rows row there
  have completed : row.itemsCompleted ≤ min row.itemsCompleted row.totalItems :=
    Int.le_min.mpr ⟨Int.le_refl _, rowKept.within⟩
  exact ⟨rfl, rowKept.nonnegative, rowKept.counted,
    fun less => absurd less (Int.not_lt.mpr completed), stays, active⟩

theorem follows_status {status : PlaybackSessionStatus} (admits : s.Admits row status) :
    Follows s row.id row (updated order now (setStatusAt status now) row) := by
  have rowKept := kept.rows row there
  have fair : Fair s row.id row ((setStatusAt status now).apply row) := by
    apply fair_status kept there
    · rintro finished (rfl | rfl)
      · exact admits.resolve_right fun fresh => fresh.1 finished
      · exact absurd finished admits.2
    · rintro rfl
      rcases admits with played | ⟨_, alone⟩
      · exact .inl played
      · exact .inr (.inr ⟨rfl, alone⟩)
  refine fair.follows (fun _ => rfl)
    (fun beyond => absurd rowKept.within (Int.not_le.mpr beyond)) ?_
  intro isOpen played
  rcases isOpen with active | paused
  · exact .inr (.inr ⟨List.mem_cons_self, active⟩)
  · have paused : status = .paused := paused
    subst paused
    exact absurd played admits.1

theorem follows_pause (active : row.status = .active) :
    Follows s activated row (updated order now (setStatus .paused) row) ∧
      (updated order now (setStatus .paused) row).status ≠ .active := by
  have rowKept := kept.rows row there
  have within (beyond : row.totalItems < row.itemsCompleted) : Column.totalItems ∈ [.status] :=
    absurd rowKept.within (Int.not_le.mpr beyond)
  have completes : Completes (setStatus .paused) row :=
    fun _ played => absurd played (rowKept.unplayed (.inl active))
  constructor
  · have fair : Fair s activated row ((setStatus .paused).apply row) := by
      apply fair_status kept there
      · intro finished
        exact absurd (.inl active) (kept.finished row there finished)
      · intro wrong
        cases wrong
    exact fair.follows (fun _ => rfl) within completes
  · intro wrong
    have reads : (updated order now (setStatus .paused) row).reading = _ :=
      updated_reading order within completes
    cases (status_of_open reads (.inl wrong)).1.symm.trans wrong

theorem follows_items (isOpen : row.Open) (req : UpdatePlaybackSessionItemsRequest)
    (validated : List SessionItem) :
    Follows s activated row (updated order now (setItems req validated now) row) := by
  have rowKept := kept.rows row there
  have fair : Fair s activated row ((setItems req validated now).apply row) := by
    constructor
    · rfl
    · exact rowKept.nonnegative
    · rfl
    · intro less
      have within := rowKept.within
      have counted := rowKept.counted
      have shorter : min row.itemsCompleted (validated.length : Int) < row.itemsCompleted := less
      show validated.length < row.items.length
      omega
    · intro finished
      exact absurd isOpen (kept.finished row there finished)
    · intro active
      exact .inr (.inl active)
  have named : Column.totalItems ∈ (setItems req validated now).sets :=
    List.mem_cons_of_mem _ (List.mem_cons_of_mem _ List.mem_cons_self)
  exact fair.follows (fun _ => rfl) (fun _ => named) fun _ _ => .inl named

end Statements

theorem Kept.same {next : Sessions} (kept : Kept s)
    (same : next.playbackSessionz = s.playbackSessionz) :
    Kept (noting s next) ∧ Forward s next := by
  apply kept.follows
  intro row there
  rw [same] at there
  exact ⟨row, there, Follows.refl kept there ""⟩

variable {table : Table PlaybackSession.id}

theorem fresh_of_insert
    (inserted : s.playbackSessionz.insert row = some table) {old : PlaybackSession}
    (there : old ∈ s.playbackSessionz) : old.id ≠ row.id := by
  intro same
  have taken := (Table.insert_eq_none _ _).mpr ⟨old, there, same⟩
  rw [inserted] at taken
  cases taken

theorem Kept.paused (kept : Kept s)
    (inserted : s.playbackSessionz.insert row = some table) {new : PlaybackSession} (there : new ∈
      ({ s with playbackSessionz := table }.autoPause order now row).playbackSessionz) :
    new = row ∨ ∃ old ∈ s.playbackSessionz, Follows s row.id old new ∧
      (new.userId = row.userId → new.status ≠ .active) := by
  obtain ⟨old, known, rfl⟩ :=
    (Table.mem_update _ _ _ (updated_id order now fun _ => rfl) _).mp there
  rcases (Table.insert_eq_some _ _ _ inserted old).mp known with before | rfl
  · refine .inr ⟨old, before, ?_⟩
    split
    · rename_i chosen
      obtain ⟨_, _, active⟩ := of_decide_eq_true chosen
      obtain ⟨follows, inactive⟩ := follows_pause kept before active
      exact ⟨follows, fun _ => inactive⟩
    · rename_i passed
      refine ⟨Follows.refl kept before row.id, fun user active => passed ?_⟩
      exact decide_eq_true ⟨user, fresh_of_insert inserted before, active⟩
  · refine .inl (if_neg fun chosen => ?_)
    exact (of_decide_eq_true chosen).2.1 rfl

theorem Kept.autoPause (kept : Kept s) (inserted : s.playbackSessionz.insert row = some table)
    (rowKept : RowKept row) (active : row.status = .active) : let next := { s with playbackSessionz := table }.autoPause order now row
    Kept (noting s next) ∧ Forward s next := by
  intro next
  have unknown : s.playbackSessionz.get row.id = none :=
    (Table.get_eq_none _ _).mpr fun old there => fresh_of_insert inserted there
  refine ⟨⟨fun new there => ?_, fun new there noted => ?_, ?_⟩, fun old there new later same => ?_⟩
  · rcases kept.paused inserted there with rfl | ⟨old, _, follows, _⟩
    · exact rowKept
    · exact follows.kept
  · rcases kept.paused inserted there with rfl | ⟨old, _, follows, _⟩
    · rcases of_decide_eq_true (mem_noting there noted) with completed | ⟨_, items⟩
      · rw [active] at completed
        cases completed
      · rw [unknown] at items
        cases items
    · exact follows.unfinished there noted
  · intro a first b second user activeA activeB
    rcases kept.paused inserted first with rfl | ⟨a', thereA, followsA, inactiveA⟩
    · rcases kept.paused inserted second with rfl | ⟨b', thereB, followsB, inactiveB⟩
      · rfl
      · exact absurd activeB (inactiveB user.symm)
    · rcases kept.paused inserted second with rfl | ⟨b', thereB, followsB, inactiveB⟩
      · exact absurd activeA (inactiveA user)
      · exact next.playbackSessionz.eq_of_key_eq first second
          (kept.activeFollows thereA thereB followsA followsB user activeA activeB)
  · rcases kept.paused inserted later with rfl | ⟨other, there', follows, _⟩
    · exact absurd same.symm (fresh_of_insert inserted there)
    · exact follows.forwards there there' same

theorem Kept.insert (kept : Kept s) (rowKept : RowKept row) (active : row.status = .active) :
    Kept (noting s (s.insert order now row)) ∧ Forward s (s.insert order now row) := by
  unfold Sessions.insert
  split
  · split
    · rename_i table inserted
      exact kept.autoPause inserted rowKept active
    · exact kept.same rfl
  · exact kept.same rfl

theorem Kept.goOn {next : Sessions} (call : Nat) (then_ : SessionCall)
    (keeps : Kept (noting s next) ∧ Forward s next) :
    Kept (noting s (next.goOn call then_)) ∧ Forward s (next.goOn call then_) :=
  ⟨⟨keeps.1.rows, keeps.1.finished, keeps.1.oneActive⟩, keeps.2⟩

theorem Kept.statement (kept : Kept s) {call : Nat} {env : Env}
    (fits : s.FitsCall s.calls[call]?) :
    Kept (noting s (s.statement order call env)) ∧ Forward s (s.statement order call env) := by
  unfold Sessions.statement
  split
  · dsimp only
    split
    · exact kept.same rfl
    · exact kept.same rfl
  · apply Kept.goOn
    apply kept.insert
    · exact ⟨Int.le_refl _, Int.natCast_nonneg _, rfl,
        fun _ played => absurd played.2 (Int.not_lt.mpr played.1)⟩
    · rfl
  · split
    · split
      · exact kept.same rfl
      · exact kept.same rfl
    · exact kept.same rfl
  · rename_i id userId progress waiting
    rw [waiting] at fits
    refine Kept.goOn call .done (kept.updateWhere "" fun row there chosen => ?_)
    obtain ⟨named, user⟩ := of_decide_eq_true chosen
    exact follows_progress kept there (fits row there named user)
  · rename_i id userId status waiting
    rw [waiting] at fits
    refine Kept.goOn call .done (kept.updateWhere id fun row there chosen => ?_)
    obtain ⟨named, user⟩ := of_decide_eq_true chosen
    exact named ▸ follows_status kept there (fits row there named user)
  · exact kept.same rfl
  · refine Kept.goOn call .done (kept.updateWhere "" fun row there chosen => ?_)
    obtain ⟨named, user, isOpen⟩ := of_decide_eq_true chosen
    exact follows_items kept there isOpen _ _
  · exact kept.same rfl
  · exact kept.same rfl

theorem step_kept (op : SessionOp) (s : Sessions) (fits : Fits op s) (kept : Kept s) :
    Kept (step order op s) ∧ Forward s (step order op s) := by
  cases op with
  | statement call env => exact kept.statement fits
  | _ => exact kept.same rfl

theorem empty_kept : Kept {} := by
  constructor
  all_goals
    intro row none
    exact absurd none (Table.not_mem_empty row)

/-- Whenever progress stays within the items and statuses are given with care, the sessions are as
they should be between any two statements. -/
theorem sessions_kept (order : TriggerOrder) (ops : List SessionOp)
    (meets : Meets (step order) Fits ops {}) :
    Kept (runAll (step order) ops {}) ∧ ∀ before op, before ++ [op] <+: ops →
      Forward (runAll (step order) before {}) (runAll (step order) (before ++ [op]) {}) := by
  have keeps (op : SessionOp) (s : Sessions) (fits : Fits op s) (kept : Kept s) :
      Kept (step order op s) := (step_kept op s fits kept).1
  refine ⟨meets.keeps keeps empty_kept, fun before op taken => ?_⟩
  obtain ⟨rest, rfl⟩ := taken
  rw [List.append_assoc] at meets
  have kept := (meets.of_prefix (List.prefix_append before _)).keeps keeps empty_kept
  rw [runAll_append]
  exact (step_kept op _ meets.fits_at kept).2

def oneSong : List SessionItem := [⟨"song", "s1"⟩]

def env (fresh : String) : Env := ⟨0, fresh, some ["s1"], some []⟩

def created (call : Nat) (fresh : String) : List SessionOp :=
  [.createPlaybackSession "crow" ⟨"song", "angst", oneSong, 240000⟩, .statement call (env fresh),
    .statement call (env fresh)]

def inTurn : List SessionOp :=
  created 0 "a" ++ [SessionOp.updatePlaybackSessionProgress "a" "crow" 1, SessionOp.statement 1 (env ""),
    SessionOp.statement 1 (env "")] ++ created 2 "b" ++ [SessionOp.updatePlaybackSessionStatus "b" "crow" .paused,
    SessionOp.statement 3 (env ""), SessionOp.updatePlaybackSessionStatus "b" "crow" .active, SessionOp.statement 4 (env "")]

def beyond : List SessionOp :=
  created 0 "a" ++ [SessionOp.updatePlaybackSessionProgress "a" "crow" 5, SessionOp.statement 1 (env ""),
    SessionOp.statement 1 (env "")]

def pausedAtEnd : List SessionOp :=
  created 0 "a" ++ [SessionOp.updatePlaybackSessionProgress "a" "crow" 1, SessionOp.statement 1 (env ""),
    SessionOp.statement 1 (env ""), SessionOp.updatePlaybackSessionStatus "a" "crow" .paused, SessionOp.statement 2 (env "")]

def twice : List SessionOp :=
  created 0 "a" ++ created 1 "b" ++ [SessionOp.updatePlaybackSessionStatus "a" "crow" .active,
    SessionOp.statement 2 (env "")]

theorem sessions_kept_in_turn :
    Kept (runAll (step newestFirst) inTurn {}) ∧ ∀ before op, before ++ [op] <+: inTurn →
      Forward (runAll (step newestFirst) before {})
        (runAll (step newestFirst) (before ++ [op]) {}) :=
  sessions_kept newestFirst inTurn (by decide)

/-- More items completed than there are, a played session paused, two active sessions. -/
theorem sessions_not_kept :
    ¬Kept (runAll (step newestFirst) beyond {}) ∧
      ¬Kept (runAll (step newestFirst) pausedAtEnd {}) ∧
      ¬Kept (runAll (step newestFirst) twice {}) := by
  have tooMany : ∃ row ∈ (runAll (step newestFirst) beyond {}).playbackSessionz.rows,
      row.totalItems < row.itemsCompleted := by decide
  have played : ∃ row ∈ (runAll (step newestFirst) pausedAtEnd {}).playbackSessionz.rows,
      row.Open ∧ row.Played := by decide
  have both : ∃ a ∈ (runAll (step newestFirst) twice {}).playbackSessionz.rows,
      ∃ b ∈ (runAll (step newestFirst) twice {}).playbackSessionz.rows,
      a.userId = b.userId ∧ a.status = .active ∧ b.status = .active ∧ a ≠ b := by decide
  refine ⟨fun kept => ?_, fun kept => ?_, fun kept => ?_⟩
  · obtain ⟨row, there, less⟩ := tooMany
    exact absurd (kept.rows row there).within (Int.not_le.mpr less)
  · obtain ⟨row, there, isOpen, isPlayed⟩ := played
    exact (kept.rows row there).unplayed isOpen isPlayed
  · obtain ⟨a, thereA, b, thereB, user, activeA, activeB, differ⟩ := both
    exact differ (kept.oneActive a thereA b thereB user activeA activeB)

end Sessions

end Tomb.Grimoire.Music.Analytics
