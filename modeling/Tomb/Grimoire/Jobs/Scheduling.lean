import Tomb.Grimoire.Jobs.Lifecycle
import Tomb.Grimoire.Jobs.Runner

/-! When the search for a job that may run finds one: it looks at the head of the queue only. -/
namespace Tomb.Grimoire.Jobs.Scheduling
open Tomb.Lib

section Search

variable {N : Type} (fromStr : String → Option (Json N)) (poolSize : Nat)

structure Runnable (runner : Runner) (job : Job) : Prop where
  intro ::
  room : ∃ jobType, JobType.parse job.jobType = some jobType ∧
    ∀ cap, classCap (jobClass jobType) poolSize = some cap →
      runner.classCounts (jobClass jobType) < cap
  apart : ∀ key, conflictKeyFor fromStr job = some key → key ∉ runner.busyKeys

def calm (now : Int) : Fortune := ⟨now, none, fun _ => none, fun _ => .returned true⟩

def ReturnsJob (runner : Runner) (now : Int) : Prop :=
  ∃ job classPermit,
    ((claimNextUnblockedJob fromStr poolSize (calm now)).run runner).1 =
      .ok (some (job, classPermit))

variable {fromStr poolSize} {runner : Runner} {now : Int}

theorem countClass_undo (class_ : JobClass) :
    (runner.countClass class_ (· + 1)).countClass class_ (· - 1) = runner := by
  unfold Runner.countClass
  simp

theorem claim_pending {t : Tables} {job : Job} (present : job ∈ t.jobz)
    (pending : job.status = .pending) : (t.claim job.id now).1 = some (Tables.claimed now job) := by
  have found : t.jobz.get job.id = some job := (Table.get_eq_some _ _ _).mpr ⟨present, rfl⟩
  simp [Tables.claim, Tables.updateJob, found, Option.filter, pending]

variable {candidate : Job} {classPermit : Option JobClass} {fortune : Fortune}
  {rest : PoolCall (Option (Job × Option JobClass))} {runner' : Runner}

theorem claimCandidate_blocked {key : ConflictKey}
    (drops : (dropClassPermit classPermit).run runner' = (.ok (), runner))
    (names : conflictKeyFor fromStr candidate = some key) (busy : key ∈ runner'.busyKeys) :
    (claimCandidate fromStr fortune candidate classPermit rest).run runner' = rest.run runner := by
  have refused : (reserveKey (some key)).run runner' = (.ok false, runner') := by
    change (Except.ok (runner'.reserveKey key).1, (runner'.reserveKey key).2) = _
    rw [Runner.reserveKey, if_pos busy]
  rw [claimCandidate, names, Prog.run_bind, refused]
  dsimp only
  rw [if_neg Bool.false_ne_true, Prog.run_bind, drops]

theorem claimCandidate_claims
    (apart : ∀ key, conflictKeyFor fromStr candidate = some key → key ∉ runner'.busyKeys)
    (present : candidate ∈ runner'.tables.jobz) (pending : candidate.status = .pending) :
    ((claimCandidate fromStr (calm now) candidate classPermit rest).run runner').1 =
      .ok (some (Tables.claimed now candidate, classPermit)) := by
  have reserved : ∃ later : Runner, later.tables = runner'.tables ∧
      (reserveKey (conflictKeyFor fromStr candidate)).run runner' = (.ok true, later) := by
    cases names : conflictKeyFor fromStr candidate with
    | none => exact ⟨runner', rfl, rfl⟩
    | some key =>
      refine ⟨(runner'.reserveKey key).2, ?_, ?_⟩
      · rw [Runner.reserveKey, if_neg (apart key names)]
      · change (Except.ok (runner'.reserveKey key).1, (runner'.reserveKey key).2) = _
        rw [Runner.reserveKey, if_neg (apart key names)]
  obtain ⟨later, same, reserved⟩ := reserved
  rw [claimCandidate, Prog.run_bind, reserved]
  dsimp only
  rw [if_pos rfl, Prog.run_bind, Prog.run_issue]
  have claims : (Machine.exec (PoolCmd.tryClaimPendingJob candidate.id (calm now).now
      ((calm now).claimFault candidate.id)) later).1 = .ok (some (Tables.claimed now candidate)) := by
    change Except.ok (later.tables.claim candidate.id now).1 = _
    rw [same, claim_pending present pending]
  rw [claims]
  rfl

theorem claimFirst_skips (fortune : Fortune) (candidates : List Job)
    (blocked : ¬Runnable fromStr poolSize runner candidate) :
    (claimFirst fromStr poolSize fortune (candidate :: candidates)).run runner =
      (claimFirst fromStr poolSize fortune candidates).run runner := by
  rw [claimFirst]
  split
  · rfl
  · rename_i jobType parsed
    have keyBusy (room : ∀ cap, classCap (jobClass jobType) poolSize = some cap →
        runner.classCounts (jobClass jobType) < cap) :
        ∃ key, conflictKeyFor fromStr candidate = some key ∧ key ∈ runner.busyKeys := by
      by_contra free
      refine blocked ⟨⟨jobType, parsed, room⟩, fun key names busy => free ⟨key, names, busy⟩⟩
    split
    · rename_i cap capped
      have answer : Machine.exec (PoolCmd.reserveClass (jobClass jobType) cap) runner =
          runner.reserveClass (jobClass jobType) cap := rfl
      rw [Prog.run_bind, Prog.run_issue, answer]
      by_cases full : cap ≤ runner.classCounts (jobClass jobType)
      · rw [Runner.reserveClass, if_pos full]
        rfl
      · rw [Runner.reserveClass, if_neg full]
        obtain ⟨key, names, busy⟩ := keyBusy fun cap' capped' => by
          cases capped.symm.trans capped'
          exact Nat.lt_of_not_le full
        refine claimCandidate_blocked ?_ names busy
        change (Except.ok (), (runner.countClass _ (· + 1)).countClass _ (· - 1)) = _
        rw [countClass_undo]
    · rename_i free
      obtain ⟨key, names, busy⟩ := keyBusy fun cap capped => by cases free.symm.trans capped
      exact claimCandidate_blocked rfl names busy

theorem claimFirst_claims {candidates : List Job} (may : Runnable fromStr poolSize runner candidate)
    (present : candidate ∈ runner.tables.jobz) (pending : candidate.status = .pending) :
    ∃ permit, ((claimFirst fromStr poolSize (calm now) (candidate :: candidates)).run runner).1 =
      .ok (some (Tables.claimed now candidate, permit)) := by
  obtain ⟨⟨jobType, parsed, room⟩, apart⟩ := may
  rw [claimFirst, parsed]
  dsimp only
  split
  · rename_i cap capped
    have answer : Machine.exec (PoolCmd.reserveClass (jobClass jobType) cap) runner =
        (true, runner.countClass (jobClass jobType) (· + 1)) :=
      if_neg (Nat.not_le_of_lt (room cap capped))
    rw [Prog.run_bind, Prog.run_issue, answer]
    exact ⟨_, claimCandidate_claims apart present pending⟩
  · exact ⟨_, claimCandidate_claims apart present pending⟩

theorem claimFirst_finds_iff {candidates : List Job}
    (pending : ∀ job ∈ candidates, job ∈ runner.tables.jobz ∧ job.status = .pending) :
    (∃ job permit, ((claimFirst fromStr poolSize (calm now) candidates).run runner).1 =
      .ok (some (job, permit))) ↔ ∃ job ∈ candidates, Runnable fromStr poolSize runner job := by
  induction candidates with
  | nil =>
    constructor
    · rintro ⟨job, permit, found⟩
      cases found
    · rintro ⟨job, member, -⟩
      cases member
  | cons candidate rest ih =>
    by_cases may : Runnable fromStr poolSize runner candidate
    · obtain ⟨present, waits⟩ := pending candidate List.mem_cons_self
      obtain ⟨permit, found⟩ := claimFirst_claims may present waits
      exact iff_of_true ⟨_, permit, found⟩ ⟨candidate, List.mem_cons_self, may⟩
    · have skips := claimFirst_skips (calm now) rest may
      rw [skips, ih fun job member => pending job (List.mem_cons_of_mem _ member)]
      simp only [List.mem_cons, exists_eq_or_imp, may, false_or]

theorem mem_due {t : Tables} {job : Job} (due : job ∈ t.due now) :
    job ∈ t.jobz ∧ job.status = .pending := by
  obtain ⟨present, waits⟩ := List.mem_filter.mp ((List.mergeSort_perm ..).mem_iff.mp due)
  exact ⟨present, of_decide_eq_true ((Bool.and_eq_true ..).mp waits).1⟩

/-- The search returns a job exactly when one of the head of the queue may run. -/
theorem returnsJob_iff : ReturnsJob fromStr poolSize runner now ↔
    ∃ job ∈ (runner.tables.due now).take (peekLimit poolSize),
      Runnable fromStr poolSize runner job := by
  rw [← claimFirst_finds_iff fun job member => mem_due (List.mem_of_mem_take member)]
  rfl

end Search

section Starvation

variable {N : Type} (fromStr : String → Option (Json N))

/-- Where a due job may run, the search returns one exactly if one of the head of the queue may. -/
theorem never_idles_iff (poolSize : Nat) (runner : Runner) (now : Int) :
    ((∃ job ∈ runner.tables.due now, Runnable fromStr poolSize runner job) →
        ReturnsJob fromStr poolSize runner now) ↔
      ((∃ job ∈ runner.tables.due now, Runnable fromStr poolSize runner job) →
        ∃ job ∈ (runner.tables.due now).take (peekLimit poolSize),
          Runnable fromStr poolSize runner job) := by
  rw [returnsJob_iff]

end Starvation

/-! Eight imports wait in front of a quick job, and three more are running. -/

def waiting (id : String) (jobType : JobType) : Job where
  id := id
  sessionId := none
  jobType := jobType.name
  status := .pending
  parameters := "\x7b\x7d"
  result := none
  retryCount := 0
  maxRetries := 3
  scheduledAt := 0
  startedAt := none
  completedAt := none
  errorMessage := none
  createdBy := none
  priority := 0
  attempt := 1

def imports : List Job := ["0", "1", "2", "3", "4", "5", "6", "7"].map (waiting · .importMusic)

def quickJob : Job := waiting "8" .syncSongByBlake3

def burst : Runner where
  tables := ⟨⟨imports ++ [quickJob], by decide⟩, ∅, by decide⟩
  permits := 1
  busyKeys := ∅
  classCounts class_ := if class_ = .heavy then 3 else 0

theorem burst_due : burst.tables.due 0 = imports ++ [quickJob] := by
  have pending : burst.tables.jobz.rows.filter (fun job =>
      job.status = .pending && job.scheduledAt ≤ 0) = imports ++ [quickJob] := by decide
  rw [Tables.due, pending]
  exact List.mergeSort_of_pairwise (by decide)

/-- The reserved slot stays empty. -/
theorem burst_starves_quick_job : ¬∀ (fromStr : String → Option (Json Unit)) (poolSize : Nat)
    (runner : Runner) (now : Int),
    (∃ job ∈ runner.tables.due now, Runnable fromStr poolSize runner job) →
      ReturnsJob fromStr poolSize runner now := by
  intro claimed
  have found := claimed (fun _ => none) 4 burst 0
    ⟨quickJob, burst_due ▸ by decide, ⟨.syncSongByBlake3, by decide, nofun⟩, nofun⟩
  obtain ⟨job, member, ⟨jobType, parsed, room⟩, -⟩ := returnsJob_iff.mp found
  rw [burst_due] at member
  have heavy : ∀ job ∈ imports, JobType.parse job.jobType = some .importMusic := by decide
  cases parsed.symm.trans (heavy job member)
  exact absurd (room 3 rfl) (by decide)

end Tomb.Grimoire.Jobs.Scheduling
