import Tomb.Grimoire.Jobs.Service

/-! What holds of jobs and sessions in every interleaving of the operations' statements. -/
namespace Tomb.Grimoire.Jobs
open Tomb.Lib

/-- What a statement may make of a job: a cancelled one stays so, and one that becomes pending
begins a new attempt. -/
structure Job.Moves (old new : Job) : Prop where
  maxRetries : new.maxRetries = old.maxRetries
  cancelled : old.status = .cancelled → new.status = .cancelled
  attempt : (new.attempt = old.attempt ∧ (new.status = .pending → old.status = .pending)) ∨
    new.attempt = old.attempt + 1

theorem Job.Moves.rfl {job : Job} : job.Moves job := 
  ⟨.refl _, fun cancelled => cancelled, .inl ⟨.refl _, fun pending => pending⟩⟩

/-- A job has failed at most as often as it may, and less often while it is live. -/
def Job.InBudget (job : Job) : Prop :=
  job.retryCount ≤ job.budget ∧ (job.status.live → job.retryCount < job.budget)

namespace Tables

def JobsMove (t t' : Tables) : Prop :=
  ∀ id job, t.jobz.get id = some job → ∃ job', t'.jobz.get id = some job' ∧ job.Moves job'

variable (t : Tables)

def NonePending : Prop := ∀ job ∈ t.jobz, t.sessionCancelled job → job.status ≠ .pending

def InBudget : Prop := ∀ job ∈ t.jobz, job.InBudget

def HasJob (sessionId : String) : Prop := ∃ job ∈ t.jobz, job.sessionId = some sessionId

/-- A session with jobs is active exactly while one of them is live, unless it is cancelled or
paused. -/
def Consistent (sessionId : String) : Prop :=
  ∀ session ∈ t.jobSessionz, session.id = sessionId → session.status ≠ .cancelled →
    session.status ≠ .paused → t.HasJob sessionId →
      (session.status = .active ↔ t.hasLive sessionId = true)

structure Sound : Prop where
  nonePending : t.NonePending
  inBudget : t.InBudget
  consistent : ∀ sessionId, t.Consistent sessionId

theorem hasLive_iff {sessionId : String} : t.hasLive sessionId = true ↔
    ∃ job ∈ t.jobz, job.sessionId = some sessionId ∧ job.status.live = true := by
  simp only [hasLive, List.any_eq_true, Bool.and_eq_true, decide_eq_true_eq]
  exact Iff.rfl

section UpdateJobs

variable {t} {p : Job → Bool} {f : Job → Job}
  (keeps : ∀ job, (f job).id = job.id ∧ (f job).sessionId = job.sessionId)

theorem mem_updateJobs {job : Job} : job ∈ (t.updateJobs p f keeps).jobz ↔
    ∃ old ∈ t.jobz, (if p old then f old else old) = job :=
  t.jobz.mem_update p f (fun job => (keeps job).1) job

theorem jobsMove_updateJobs (moves : ∀ job, p job → job.Moves (f job)) :
    t.JobsMove (t.updateJobs p f keeps) := by
  intro id job found
  refine ⟨if p job then f job else job, ?_, ?_⟩
  · rw [updateJobs, t.jobz.get_update, found]
    rfl
  · split
    · rename_i matched
      exact moves job matched
    · exact .rfl

theorem sessionCancelled_updateJobs (job : Job) :
    (t.updateJobs p f keeps).sessionCancelled job = t.sessionCancelled job := rfl

theorem sessionCancelled_congr {job job' : Job} (same : job'.sessionId = job.sessionId) :
    t.sessionCancelled job' = t.sessionCancelled job := by
  rw [sessionCancelled, sessionCancelled, same]

theorem nonePending_updateJobs (none_ : t.NonePending)
    (fits : ∀ job, p job → (f job).status = .pending → t.sessionCancelled job = false) :
    (t.updateJobs p f keeps).NonePending := by
  intro job member
  obtain ⟨old, present, rfl⟩ := (mem_updateJobs keeps).mp member
  rw [sessionCancelled_updateJobs keeps]
  split
  · rename_i matched
    intro sessionCancelled pending
    rw [sessionCancelled_congr (keeps old).2, fits old matched pending] at sessionCancelled
    cases sessionCancelled
  · exact none_ old present

theorem inBudget_updateJobs (inBudget : t.InBudget)
    (fits : ∀ job ∈ t.jobz, p job → job.InBudget → (f job).InBudget) :
    (t.updateJobs p f keeps).InBudget := by
  intro job member
  obtain ⟨old, present, rfl⟩ := (mem_updateJobs keeps).mp member
  split
  · rename_i matched
    exact fits old present matched (inBudget old present)
  · exact inBudget old present

theorem hasJob_updateJobs {sessionId : String} :
    (t.updateJobs p f keeps).HasJob sessionId ↔ t.HasJob sessionId := by
  have same (old : Job) : (if p old then f old else old).sessionId = old.sessionId := by
    split
    · exact (keeps old).2
    · rfl
  constructor
  · rintro ⟨job, member, names⟩
    obtain ⟨old, present, rfl⟩ := (mem_updateJobs keeps).mp member
    exact ⟨old, present, (same old).symm.trans names⟩
  · rintro ⟨old, present, names⟩
    exact ⟨_, (mem_updateJobs keeps).mpr ⟨old, present, rfl⟩, (same old).trans names⟩

theorem consistent_updateJobs {sessionId : String} (consistent : t.Consistent sessionId)
    (same : ∀ job ∈ t.jobz, p job → job.sessionId = some sessionId →
      (f job).status.live = job.status.live) :
    (t.updateJobs p f keeps).Consistent sessionId := by
  have live : (t.updateJobs p f keeps).hasLive sessionId = true ↔ t.hasLive sessionId = true := by
    have names (old : Job) : (if p old then f old else old).sessionId = old.sessionId := by
      split
      · exact (keeps old).2
      · rfl
    have lives (old : Job) (present : old ∈ t.jobz) (its : old.sessionId = some sessionId) :
        (if p old then f old else old).status.live = old.status.live := by
      split
      · rename_i matched
        exact same old present matched its
      · rfl
    rw [hasLive_iff, hasLive_iff]
    constructor
    · rintro ⟨job, member, its, isLive⟩
      obtain ⟨old, present, rfl⟩ := (mem_updateJobs keeps).mp member
      rw [names] at its
      rw [lives old present its] at isLive
      exact ⟨old, present, its, isLive⟩
    · rintro ⟨old, present, its, isLive⟩
      refine ⟨_, (mem_updateJobs keeps).mpr ⟨old, present, rfl⟩, ?_, ?_⟩
      · rw [names, its]
      · rw [lives old present its, isLive]
  intro session member names notCancelled notPaused hasJob
  rw [live]
  exact consistent session member names notCancelled notPaused ((hasJob_updateJobs keeps).mp hasJob)

end UpdateJobs

section UpdateSessions

variable {t} {p : JobSession → Bool} {f : JobSession → JobSession}
  (keeps : ∀ session, (f session).id = session.id)

theorem mem_updateSessions {session : JobSession} :
    session ∈ (t.updateSessions p f keeps).jobSessionz ↔
      ∃ old ∈ t.jobSessionz, (if p old then f old else old) = session :=
  t.jobSessionz.mem_update p f keeps session

theorem jobsMove_updateSessions : t.JobsMove (t.updateSessions p f keeps) :=
  fun _ job found => ⟨job, found, .rfl⟩

theorem nonePending_updateSessions (none_ : t.NonePending)
    (fits : ∀ session, p session → (f session).status ≠ .cancelled) :
    (t.updateSessions p f keeps).NonePending := by
  intro job present cancelled
  refine none_ job present (decide_eq_true ?_)
  have cancelled := of_decide_eq_true cancelled
  simp only [sessionStatus, Option.map_eq_some_iff, Option.bind_eq_some_iff] at cancelled ⊢
  obtain ⟨session, ⟨sessionId, names, found⟩, status⟩ := cancelled
  rw [updateSessions, t.jobSessionz.get_update, Option.map_eq_some_iff] at found
  obtain ⟨old, before, rfl⟩ := found
  split at status
  · rename_i matched
    exact absurd status (fits old matched)
  · exact ⟨old, ⟨sessionId, names, before⟩, status⟩

theorem consistent_updateSessions {sessionId : String} (consistent : t.Consistent sessionId)
    (fits : ∀ session, p session → session.id = sessionId → (f session).status ≠ .cancelled →
      (f session).status ≠ .paused → t.HasJob sessionId →
        ((f session).status = .active ↔ t.hasLive sessionId = true)) :
    (t.updateSessions p f keeps).Consistent sessionId := by
  intro session member names
  obtain ⟨old, present, rfl⟩ := (mem_updateSessions keeps).mp member
  by_cases matched : p old = true
  · rw [if_pos matched] at names ⊢
    rw [keeps] at names
    exact fits old matched names
  · rw [if_neg matched] at names ⊢
    exact consistent old present names

end UpdateSessions

/-! Each statement in its turn. -/

section UpdateJob

variable {t} {id : String} {p : Job → Bool} {f : Job → Job}
  (keeps : ∀ job, (f job).id = job.id ∧ (f job).sessionId = job.sessionId)

theorem updateJob_some {job : Job} (found : (t.updateJob id p f keeps).1 = some job) :
    ∃ old ∈ t.jobz, old.id = id ∧ p old = true ∧ job = f old := by
  obtain ⟨old, got, rfl⟩ := Option.map_eq_some_iff.mp found
  obtain ⟨got, matched⟩ := Option.filter_eq_some_iff.mp got
  obtain ⟨present, same⟩ := (t.jobz.get_eq_some id old).mp got
  exact ⟨old, present, same, matched, rfl⟩

theorem updateJob_only {job : Job} (present : job ∈ t.jobz) (matched : job.id = id ∧ p job = true) :
    (t.updateJob id p f keeps).1 = some (f job) := by
  have got : t.jobz.get id = some job := (t.jobz.get_eq_some id job).mpr ⟨present, matched.1⟩
  rw [updateJob, got, Option.filter_some, if_pos matched.2]
  rfl

theorem jobsMove_updateJob (moves : ∀ job, p job → job.Moves (f job)) :
    t.JobsMove (t.updateJob id p f keeps).2 :=
  jobsMove_updateJobs keeps fun job matched => moves job ((Bool.and_eq_true ..).mp matched).2

theorem nonePending_updateJob (none_ : t.NonePending)
    (fits : ∀ job, p job → (f job).status = .pending → t.sessionCancelled job = false) :
    (t.updateJob id p f keeps).2.NonePending :=
  nonePending_updateJobs keeps none_ fun job matched => fits job ((Bool.and_eq_true ..).mp matched).2

theorem inBudget_updateJob (inBudget : t.InBudget)
    (fits : ∀ job ∈ t.jobz, job.id = id → p job → job.InBudget → (f job).InBudget) :
    (t.updateJob id p f keeps).2.InBudget :=
  inBudget_updateJobs keeps inBudget fun job present matched => by
    obtain ⟨same, matched⟩ := (Bool.and_eq_true ..).mp matched
    exact fits job present (of_decide_eq_true same) matched

theorem consistent_updateJob {sessionId : String} (consistent : t.Consistent sessionId) :
    (t.updateJob id p f keeps).2.Consistent sessionId ∨
      ∃ job, (t.updateJob id p f keeps).1 = some job ∧ job.sessionId = some sessionId := by
  by_cases other : ∃ job, (t.updateJob id p f keeps).1 = some job ∧ job.sessionId = some sessionId
  · exact .inr other
  · refine .inl (consistent_updateJobs keeps consistent fun job present matched names => ?_)
    obtain ⟨same, matched⟩ := (Bool.and_eq_true ..).mp matched
    have updated : (t.updateJob id p f keeps).1 = some (f job) :=
      updateJob_only keeps present ⟨of_decide_eq_true same, matched⟩
    exact absurd ⟨f job, updated, (keeps job).2.trans names⟩ other

theorem consistent_updateJob_of_live {sessionId : String} (consistent : t.Consistent sessionId)
    (same : ∀ job, p job → (f job).status.live = job.status.live) :
    (t.updateJob id p f keeps).2.Consistent sessionId :=
  consistent_updateJobs keeps consistent fun job _ matched _ =>
    same job ((Bool.and_eq_true ..).mp matched).2

end UpdateJob

/-- What a statement keeps. The session that it owes a settling may become inconsistent. -/
structure Kept (t t' : Tables) (owed : Option String) : Prop where
  moves : t.JobsMove t'
  nonePending : t.NonePending → t'.NonePending
  inBudget : t.InBudget → t'.InBudget
  consistent : ∀ sessionId, t.Consistent sessionId → t'.Consistent sessionId ∨ owed = some sessionId

theorem Kept.rfl {t : Tables} : t.Kept t none :=
  ⟨fun _ job found => ⟨job, found, .rfl⟩, fun kept => kept, fun kept => kept, fun _ => .inl⟩

theorem claim_kept (id : String) (now : Int) : t.Kept (t.claim id now).2 none where
  moves := jobsMove_updateJob _ fun job pending => by
    have pending := of_decide_eq_true pending
    have other : job.status ≠ .cancelled := by
      rw [pending]
      decide
    exact ⟨.refl _, fun cancelled => absurd cancelled other, .inl ⟨.refl _, nofun⟩⟩
  nonePending none_ := nonePending_updateJob _ none_ fun _ _ pending => nomatch pending
  inBudget inBudget := inBudget_updateJob _ inBudget fun job _ _ pending within => by
    have pending := of_decide_eq_true pending
    have less : job.retryCount < job.budget := within.2 (by rw [pending]; rfl)
    exact ⟨within.1, fun _ => less⟩
  consistent _ consistent := .inl (consistent_updateJob_of_live _ consistent fun job pending => by
    have pending := of_decide_eq_true pending
    rw [pending]
    rfl)

theorem claimNext_cases (now : Int) :
    t.claimNext now = (none, t) ∨ ∃ id, t.claimNext now = t.claim id now := by
  unfold claimNext
  split
  · exact .inl rfl
  · exact .inr ⟨_, rfl⟩

theorem claimNext_kept (now : Int) : t.Kept (t.claimNext now).2 none := by
  obtain nothing | ⟨id, claims⟩ := t.claimNext_cases now
  · rw [nothing]
    exact .rfl
  · rw [claims]
    exact t.claim_kept id now

theorem complete_kept (id : String) (result : Option String) (now : Int) :
    t.Kept (t.complete id result now).2 ((t.complete id result now).1.bind Job.sessionId) where
  moves := jobsMove_updateJob _ fun job other => by
    refine ⟨.refl _, fun cancelled => absurd cancelled (of_decide_eq_true other),
      .inl ⟨.refl _, fun pending => ?_⟩⟩
    simp only [completed] at pending
    split at pending
    · cases pending
    · cases pending
  nonePending none_ := nonePending_updateJob _ none_ fun job _ pending => by
    simp only [completed] at pending
    split at pending
    · cases pending
    · cases pending
  inBudget inBudget := inBudget_updateJob _ inBudget fun job _ _ _ within => by
    refine ⟨within.1, fun live => ?_⟩
    simp only [completed] at live
    split at live
    · cases live
    · cases live
  consistent _ consistent := (consistent_updateJob _ consistent).imp_right fun ⟨job, found, names⟩ => by
    rw [complete, found]
    exact names

theorem fail_moves (id : String) (failure : Failure) (now : Int) :
    t.JobsMove (t.fail id failure now).2 := jobsMove_updateJob _ fun job other => by
  refine ⟨.refl _, fun cancelled => absurd cancelled (of_decide_eq_true other), ?_⟩
  simp only [failed]
  cases t.sessionCancelled job with
  | true => exact .inl ⟨.refl _, nofun⟩
  | false =>
    cases failure.retry with
    | true => exact .inr (.refl _)
    | false => exact .inl ⟨.refl _, nofun⟩

theorem fail_kept (id : String) (failure : Failure) (now : Int)
    (fits : ∀ job ∈ t.jobz, job.id = id → job.status ≠ .cancelled →
      failure.retryCount ≤ job.budget ∧ (failure.retry → failure.retryCount < job.budget)) :
    t.Kept (t.fail id failure now).2 ((t.fail id failure now).1.bind Job.sessionId) where
  moves := t.fail_moves id failure now
  nonePending none_ := nonePending_updateJob _ none_ fun job _ pending => by
    simp only [failed] at pending
    cases cancelled : t.sessionCancelled job with
    | false => rfl
    | true =>
      rw [cancelled] at pending
      cases pending
  inBudget inBudget := inBudget_updateJob _ inBudget fun job present same other _ => by
    obtain ⟨within, less⟩ := fits job present same (of_decide_eq_true other)
    refine ⟨within, fun live => ?_⟩
    simp only [failed] at live
    cases cancelled : t.sessionCancelled job with
    | true =>
      rw [cancelled] at live
      cases live
    | false =>
      cases again : failure.retry with
      | true => exact less again
      | false =>
        rw [cancelled, again] at live
        cases live
  consistent _ consistent := (consistent_updateJob _ consistent).imp_right fun ⟨job, found, names⟩ => by
    rw [fail, found]
    exact names

theorem cancel_kept (id : String) (now : Int) :
    t.Kept (t.cancel id now).2 ((t.cancel id now).1.bind Job.sessionId) where
  moves := jobsMove_updateJob _ fun job _ => ⟨.refl _, fun _ => .refl _, .inl ⟨.refl _, nofun⟩⟩
  nonePending none_ := nonePending_updateJob _ none_ fun _ _ pending => nomatch pending
  inBudget inBudget := inBudget_updateJob _ inBudget fun job _ _ _ within => ⟨within.1, nofun⟩
  consistent _ consistent := (consistent_updateJob _ consistent).imp_right fun ⟨job, found, names⟩ => by
    rw [cancel, found]
    exact names

theorem settledStatus_eq_active_iff (sessionId : String) :
    t.settledStatus sessionId = .active ↔ t.hasLive sessionId = true := by
  unfold settledStatus
  cases t.hasLive sessionId with
  | true => exact iff_of_true rfl rfl
  | false =>
    cases t.hasFailed sessionId with
    | true => decide
    | false => decide

theorem settledStatus_ne_cancelled (sessionId : String) :
    t.settledStatus sessionId ≠ .cancelled := by
  unfold settledStatus
  split
  · decide
  · split
    · decide
    · decide

theorem settle_kept (sessionId : String) : t.Kept (t.settle sessionId) none where
  moves := jobsMove_updateSessions _
  nonePending none_ := nonePending_updateSessions _ none_ fun _ _ =>
    t.settledStatus_ne_cancelled sessionId
  inBudget inBudget := inBudget
  consistent other consistent := .inl (consistent_updateSessions _ consistent
    fun session matched names _ _ _ => by
      obtain ⟨same, -⟩ := of_decide_eq_true matched
      rw [← names, same]
      exact t.settledStatus_eq_active_iff sessionId)

theorem settle_consistent (sessionId : String) : (t.settle sessionId).Consistent sessionId := by
  intro session member names
  obtain ⟨old, present, rfl⟩ := (mem_updateSessions _).mp member
  change _ → _ → _ → (_ ↔ t.hasLive sessionId = true)
  split
  · exact fun _ _ _ => t.settledStatus_eq_active_iff sessionId
  · rename_i unmatched
    rw [if_neg unmatched] at names
    intro notCancelled notPaused _
    have other : ¬(old.status = .active ∨ t.hasLive sessionId = true) := fun either =>
      unmatched (decide_eq_true ⟨names, notCancelled, notPaused, either⟩)
    exact iff_of_false (fun active => other (.inl active)) fun live => other (.inr live)

theorem closeIdle_kept (id : Option String) : t.Kept (t.closeIdle id).2 none where
  moves := jobsMove_updateSessions _
  nonePending none_ := nonePending_updateSessions _ none_ fun _ _ => nofun
  inBudget inBudget := inBudget
  consistent other consistent := .inl (consistent_updateSessions _ consistent
    fun session matched names _ _ _ => by
      have idle := ((Bool.and_eq_true ..).mp matched).2
      rw [names, Bool.not_eq_true'] at idle
      rw [idle]
      exact iff_of_false nofun nofun)

theorem sessionCancelled_updateSessions {p : JobSession → Bool} {f : JobSession → JobSession}
    (keeps : ∀ session, (f session).id = session.id) {job : Job}
    (out : ∀ session, some session.id = job.sessionId → p session = false) :
    (t.updateSessions p f keeps).sessionCancelled job = t.sessionCancelled job := by
  have same : (t.updateSessions p f keeps).sessionStatus job.sessionId =
      t.sessionStatus job.sessionId := by
    unfold sessionStatus
    cases names : job.sessionId with
    | none => rfl
    | some sessionId =>
      rw [Option.bind_some, Option.bind_some, updateSessions, t.jobSessionz.get_update]
      cases found : t.jobSessionz.get sessionId with
      | none => rfl
      | some session =>
        obtain ⟨-, same⟩ := (t.jobSessionz.get_eq_some sessionId session).mp found
        have unmatched : p session = false := out session (by rw [same, names])
        rw [Option.map_some, unmatched]
        rfl
  rw [sessionCancelled, sessionCancelled, same]

theorem cancelSession_kept (sessionId : String) (now : Int) :
    t.Kept (t.cancelSession sessionId now).2 none := by
  unfold cancelSession
  split
  · exact .rfl
  · refine ⟨jobsMove_updateJobs (cancelledIfPending_keeps now) fun job _ => ?_, fun none_ => ?_, fun inBudget => ?_,
      fun other consistent => .inl ?_⟩
    · unfold cancelledIfPending
      split
      · exact ⟨.refl _, fun _ => .refl _, .inl ⟨.refl _, nofun⟩⟩
      · exact .rfl
    · intro job member
      obtain ⟨old, present, rfl⟩ := (mem_updateJobs (cancelledIfPending_keeps now)).mp member
      rw [sessionCancelled_updateJobs]
      split
      · rename_i matched
        unfold cancelledIfPending
        split
        · exact fun _ => nofun
        · rename_i other
          exact fun _ => other
      · rename_i unmatched
        intro cancelled pending
        have out : ∀ session : JobSession, some session.id = old.sessionId →
            decide (session.id = sessionId) = false := by
          intro session names
          refine decide_eq_false fun same => unmatched ?_
          rw [← names, same, pending]
          exact (Bool.and_eq_true ..).mpr ⟨decide_eq_true (Eq.refl _), Eq.refl _⟩
        rw [t.sessionCancelled_updateSessions _ out] at cancelled
        exact none_ old present cancelled pending
    · refine inBudget_updateJobs (cancelledIfPending_keeps now) inBudget fun job _ _ within => ?_
      unfold cancelledIfPending
      split
      · exact ⟨within.1, nofun⟩
      · exact within
    · by_cases same : other = sessionId
      · intro session member names notCancelled
        obtain ⟨old, present, rfl⟩ := (mem_updateSessions (JobSession.become_id _)).mp member
        exfalso
        refine notCancelled ?_
        split
        · rfl
        · rename_i unmatched
          rw [if_neg unmatched, same] at names
          exact absurd (decide_eq_true names) unmatched
      · refine consistent_updateJobs (cancelledIfPending_keeps now)
          (consistent_updateSessions _ consistent ?_) ?_
        · intro session matched names
          exact absurd (names.symm.trans (of_decide_eq_true matched)) same
        · intro job _ matched names
          have its := of_decide_eq_true ((Bool.and_eq_true ..).mp matched).1
          exact absurd (Option.some.inj (names.symm.trans its)) same

theorem retry_kept (id : String) (now : Int) : t.Kept (t.retry id now).2 none := by
  have moves : t.JobsMove (t.requeue id now).2 := jobsMove_updateJob _ fun job failed => by
    have failed := (of_decide_eq_true failed).1
    have other : job.status ≠ .cancelled := by
      rw [failed]
      decide
    exact ⟨.refl _, fun cancelled => absurd cancelled other, .inr (.refl _)⟩
  have nonePending (none_ : t.NonePending) : (t.requeue id now).2.NonePending :=
    nonePending_updateJob _ none_ fun job failed _ =>
      decide_eq_false (of_decide_eq_true failed).2.1
  have inBudget (inBudget : t.InBudget) : (t.requeue id now).2.InBudget :=
    inBudget_updateJob _ inBudget fun job _ _ _ _ => by
      have positive : 0 < (retried now job).budget := Nat.lt_of_lt_of_le Nat.one_pos (Nat.le_max_right ..)
      exact ⟨Nat.zero_le _, fun _ => positive⟩
  unfold retry
  cases found : (t.requeue id now).1 with
  | none =>
    refine ⟨moves, nonePending, inBudget, fun sessionId consistent => .inl ?_⟩
    obtain kept | ⟨job, found', -⟩ := consistent_updateJob _ consistent
    · exact kept
    · exact absurd (found.symm.trans found') nofun
  | some job =>
    obtain ⟨old, present, same, matched, rfl⟩ := updateJob_some _ found
    refine ⟨moves, fun none_ => nonePending_updateSessions _ (nonePending none_) fun _ _ => nofun,
      inBudget, fun sessionId consistent => .inl ?_⟩
    by_cases its : old.sessionId = some sessionId
    · -- The job is live again, and its session active.
      have live : (t.requeue id now).2.hasLive sessionId = true := by
        refine (hasLive_iff _).mpr ⟨retried now old, ?_, its, .refl _⟩
        refine (mem_updateJobs (f := retried now) fun _ => ⟨rfl, rfl⟩).mpr
          ⟨old, present, if_pos ?_⟩
        exact (Bool.and_eq_true ..).mpr ⟨decide_eq_true same, matched⟩
      intro session member names _ _ _
      obtain ⟨before, known, rfl⟩ := (mem_updateSessions _).mp member
      refine iff_of_true ?_ live
      split
      · rfl
      · rename_i unmatched
        rw [if_neg unmatched] at names
        refine absurd (decide_eq_true ?_) unmatched
        rw [names]
        exact its.symm
    · have kept : (t.requeue id now).2.Consistent sessionId := by
        obtain kept | ⟨job, found', names⟩ := consistent_updateJob _ consistent
        · exact kept
        · cases found.symm.trans found'
          exact absurd names its
      refine consistent_updateSessions _ kept fun session matched names => ?_
      have names' := of_decide_eq_true matched
      rw [names] at names'
      exact absurd names'.symm its

/-- No active session loses its last live job to a recovery. -/
def RecoversLive : Prop :=
  ∀ session ∈ t.jobSessionz.rows, session.status = .active →
    (∃ job ∈ t.jobz.rows, job.sessionId = some session.id ∧ job.status = .running) →
    ∃ job ∈ t.jobz.rows, job.sessionId = some session.id ∧
      (job.status = .pending ∨ (job.status = .running ∧ t.replayable job = true))

instance : Decidable t.RecoversLive := by
  unfold RecoversLive
  infer_instance

theorem recovered_live_iff (now : Int) (job : Job) :
    (t.recovered now job).status.live = true ↔ t.replayable job = true := by
  have notBoth : t.replayable job = true → t.sessionCancelled job = false := fun replays =>
    (Bool.not_eq_true' _).mp ((Bool.and_eq_true ..).mp replays).2
  simp only [recovered]
  cases replays : t.replayable job with
  | true =>
    rw [notBoth replays]
    exact iff_of_true rfl rfl
  | false =>
    refine iff_of_false ?_ nofun
    cases t.sessionCancelled job with
    | true => exact nofun
    | false => exact nofun

theorem recover_moves (now : Int) : t.JobsMove (t.recover now).2 :=
  jobsMove_updateJobs (f := t.recovered now) (fun _ => ⟨rfl, rfl⟩) fun job matched => by
    have other : job.status ≠ .cancelled := by
      rw [of_decide_eq_true matched]
      decide
    refine ⟨.refl _, fun cancelled => absurd cancelled other, ?_⟩
    simp only [recovered]
    cases replays : t.replayable job with
    | true => exact .inr (.refl _)
    | false =>
      refine .inl ⟨.refl _, ?_⟩
      cases t.sessionCancelled job with
      | true => exact nofun
      | false => exact nofun

theorem recover_kept (now : Int) (recovers : t.RecoversLive) : t.Kept (t.recover now).2 none := by
  have running {job : Job} (matched : decide (job.status = .running) = true) :
      job.status.live = true := by
    rw [of_decide_eq_true matched]
    rfl
  refine ⟨t.recover_moves now, fun none_ => ?_, fun inBudget => ?_,
    fun sessionId consistent => .inl ?_⟩
  · refine nonePending_updateJobs (f := t.recovered now) (fun _ => ⟨rfl, rfl⟩) none_ fun job matched pending => ?_
    have live : (t.recovered now job).status.live = true := by
      rw [pending]
      rfl
    have replays := (t.recovered_live_iff now job).mp live
    exact (Bool.not_eq_true' _).mp ((Bool.and_eq_true ..).mp replays).2
  · refine inBudget_updateJobs (f := t.recovered now) (fun _ => ⟨rfl, rfl⟩) inBudget fun job _ matched within => ?_
    have less := within.2 (running matched)
    refine ⟨less, fun live => ?_⟩
    have replays := (t.recovered_live_iff now job).mp live
    have again := ((Bool.and_eq_true ..).mp ((Bool.and_eq_true ..).mp replays).1).2
    exact Nat.lt_of_lt_of_le (of_decide_eq_true again) (Nat.le_max_left ..)
  · intro session member names notCancelled notPaused hasJob
    have before := consistent session member names notCancelled notPaused
      ((hasJob_updateJobs (f := t.recovered now) fun _ => ⟨rfl, rfl⟩).mp hasJob)
    rw [before, hasLive_iff, hasLive_iff]
    constructor
    · rintro ⟨job, present, its, live⟩
      -- A pending job stays; a running one leaves a live one, as the session is active.
      have active : session.status = .active :=
        before.mpr ((t.hasLive_iff).mpr ⟨job, present, its, live⟩)
      have remains : ∃ job ∈ t.jobz, job.sessionId = some sessionId ∧
          (job.status = .pending ∨ (job.status = .running ∧ t.replayable job = true)) := by
        obtain pending | runs := of_decide_eq_true live
        · exact ⟨job, present, its, .inl pending⟩
        · rw [← names] at its ⊢
          exact recovers session member active ⟨job, present, its, runs⟩
      obtain ⟨job, present, its, pending | ⟨runs, replays⟩⟩ := remains
      · have there : job ∈ (t.recover now).2.jobz := by
          refine (mem_updateJobs (f := t.recovered now) fun _ => ⟨rfl, rfl⟩).mpr
            ⟨job, present, if_neg ?_⟩
          rw [pending]
          decide
        refine ⟨job, there, its, ?_⟩
        rw [pending]
        rfl
      · have there : t.recovered now job ∈ (t.recover now).2.jobz :=
          (mem_updateJobs (f := t.recovered now) fun _ => ⟨rfl, rfl⟩).mpr
            ⟨job, present, if_pos (decide_eq_true runs)⟩
        exact ⟨_, there, its, (t.recovered_live_iff now job).mpr replays⟩
    · rintro ⟨job, member, its, live⟩
      obtain ⟨old, present, rfl⟩ :=
        (mem_updateJobs (f := t.recovered now) fun _ => ⟨rfl, rfl⟩).mp member
      by_cases runs : decide (old.status = .running) = true
      · rw [if_pos runs] at its
        exact ⟨old, present, its, running runs⟩
      · rw [if_neg runs] at its live
        exact ⟨old, present, its, live⟩

theorem insertJob_some {t t' : Tables} {job : Job} (inserted : t.insertJob job = some t') :
    t.jobz.insert job = some t'.jobz ∧ t'.jobSessionz = t.jobSessionz := by
  unfold insertJob at inserted
  split at inserted
  · cases inserted
  · rename_i jobz fresh
    split at inserted
    · cases inserted
      exact ⟨fresh, rfl⟩
    · cases inserted

theorem insertSession_some {t t' : Tables} {session : JobSession}
    (inserted : t.insertSession session = some t') :
    t'.jobz = t.jobz ∧ t.jobSessionz.insert session = some t'.jobSessionz := by
  unfold insertSession at inserted
  split at inserted
  · cases inserted
  · rename_i jobSessionz fresh
    cases inserted
    exact ⟨rfl, fresh⟩

theorem enqueue_cases (id : String) (request : CreateJobRequest) (parentJob : Option String)
    (now : Int) : (∃ error, t.enqueue id request parentJob now = (.error error, t)) ∨
      ∃ maxRetries inserted, t.insertJob (newJob id request maxRetries now) = some inserted ∧
        t.sessionStatus request.sessionId ≠ some .cancelled ∧
        t.enqueue id request parentJob now =
          (.ok (newJob id request maxRetries now), inserted.reopen request.sessionId) := by
  unfold enqueue
  split
  · exact .inl ⟨_, rfl⟩
  · rename_i open_
    split
    · exact .inl ⟨_, rfl⟩
    · split
      · exact .inl ⟨_, rfl⟩
      · rename_i inserted found
        exact .inr ⟨_, inserted, found, fun cancelled => open_ (.inl cancelled), rfl⟩

theorem enqueue_kept (id : String) (request : CreateJobRequest) (parentJob : Option String)
    (now : Int) : t.Kept (t.enqueue id request parentJob now).2 none := by
  obtain ⟨error, refused⟩ | ⟨maxRetries, inserted, found, notCancelled, done⟩ :=
    t.enqueue_cases id request parentJob now
  · rw [refused]
    exact .rfl
  rw [done]
  obtain ⟨jobs, sessions⟩ := insertJob_some found
  have members := t.jobz.insert_eq_some inserted.jobz _ jobs
  have cancelled (job : Job) : inserted.sessionCancelled job = t.sessionCancelled job := by
    rw [sessionCancelled, sessionCancelled, sessionStatus, sessions, sessionStatus]
  refine ⟨fun other job before => ⟨job, ?_, .rfl⟩, fun none_ => ?_, fun inBudget job member => ?_,
    fun sessionId consistent => .inl ?_⟩
  · change inserted.jobz.get other = some job
    obtain ⟨present, same⟩ := (t.jobz.get_eq_some other job).mp before
    have apart : other ≠ (newJob id request maxRetries now).id := by
      intro taken
      have refused := (t.jobz.insert_eq_none (newJob id request maxRetries now)).mpr
        ⟨job, present, same.trans taken⟩
      rw [jobs] at refused
      cases refused
    rw [t.jobz.get_insert inserted.jobz _ jobs, if_neg apart]
    exact before
  · refine nonePending_updateSessions _ (fun job member => ?_) fun _ _ => nofun
    rw [cancelled]
    obtain old | rfl := (members job).mp member
    · exact none_ job old
    · exact fun its => absurd (of_decide_eq_true its) notCancelled
  · obtain old | rfl := (members job).mp member
    · exact inBudget job old
    · have positive : 0 < (newJob id request maxRetries now).budget :=
        Nat.lt_of_lt_of_le Nat.one_pos (Nat.le_max_right ..)
      exact ⟨Nat.zero_le _, fun _ => positive⟩
  · by_cases its : request.sessionId = some sessionId
    · have live : inserted.hasLive sessionId = true :=
        (hasLive_iff _).mpr ⟨_, (members _).mpr (.inr rfl), its, rfl⟩
      intro session member names notCancelled notPaused _
      obtain ⟨before, known, rfl⟩ := (mem_updateSessions _).mp member
      refine iff_of_true ?_ live
      split
      · rfl
      · rename_i unmatched
        rw [if_neg unmatched] at names notCancelled notPaused
        refine absurd (decide_eq_true ⟨?_, notCancelled, notPaused⟩) unmatched
        rw [names, its]
    · have same : inserted.hasLive sessionId = true ↔ t.hasLive sessionId = true := by
        rw [hasLive_iff, hasLive_iff]
        constructor
        · rintro ⟨job, member, names, live⟩
          obtain old | rfl := (members job).mp member
          · exact ⟨job, old, names, live⟩
          · exact absurd names its
        · rintro ⟨job, present, names, live⟩
          exact ⟨job, (members job).mpr (.inl present), names, live⟩
      have kept : inserted.Consistent sessionId := by
        intro session member names notCancelled notPaused ⟨job, there, its'⟩
        rw [same]
        rw [sessions] at member
        obtain old | rfl := (members job).mp there
        · exact consistent session member names notCancelled notPaused ⟨job, old, its'⟩
        · exact absurd its' its
      refine consistent_updateSessions _ kept fun session matched names => ?_
      have names' := (of_decide_eq_true matched).1
      rw [names] at names'
      exact absurd names'.symm its

theorem insertSession_kept {t t' : Tables} {session : JobSession}
    (inserted : t.insertSession session = some t') : t.Kept t' none := by
  obtain ⟨jobs, sessions⟩ := insertSession_some inserted
  have members := t.jobSessionz.insert_eq_some t'.jobSessionz session sessions
  -- No job has the new session.
  have fresh {job : Job} (present : job ∈ t.jobz) : job.sessionId ≠ some session.id := by
    intro names
    obtain ⟨old, known, same⟩ := t.references job present session.id names
    have refused := (t.jobSessionz.insert_eq_none session).mpr ⟨old, known, same⟩
    rw [sessions] at refused
    cases refused
  refine ⟨fun id job before => ⟨job, by rw [jobs]; exact before, .rfl⟩, fun none_ job member => ?_,
    fun inBudget job member => ?_, fun sessionId consistent => .inl ?_⟩
  · rw [jobs] at member
    have same : t'.sessionCancelled job = t.sessionCancelled job := by
      have status : t'.sessionStatus job.sessionId = t.sessionStatus job.sessionId := by
        unfold sessionStatus
        cases names : job.sessionId with
        | none => rfl
        | some sessionId =>
          have apart : sessionId ≠ session.id := fun same => fresh member (by rw [names, same])
          rw [Option.bind_some, Option.bind_some,
            t.jobSessionz.get_insert t'.jobSessionz session sessions, if_neg apart]
      rw [sessionCancelled, sessionCancelled, status]
    rw [same]
    exact none_ job member
  · rw [jobs] at member
    exact inBudget job member
  · rintro other member rfl notCancelled notPaused ⟨job, there, its⟩
    have live : t'.hasLive other.id = t.hasLive other.id := by rw [hasLive, jobs, hasLive]
    rw [jobs] at there
    rw [live]
    obtain old | rfl := (members other).mp member
    · exact consistent other old rfl notCancelled notPaused ⟨job, there, its⟩
    · exact absurd its (fresh there)

end Tables

end Tomb.Grimoire.Jobs
