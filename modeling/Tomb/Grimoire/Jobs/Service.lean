import Mathlib.Algebra.Group.Int.Defs
import Mathlib.Data.List.Sort
import Tomb.Lib.Pool
import Tomb.Grimoire.Jobs.Models

/-! The operations on jobs and sessions: their SQL statements and transactions, each of them atomic,
and the calls as programs of these. Ids, the time and the jitter are drawn by the caller. -/
namespace Tomb.Grimoire.Jobs
open Tomb.Lib

structure CreateJobSessionRequest where
  jobType : JobType
  batchSize : Option Int
  createdBy : Option String

structure CreateJobRequest where
  sessionId : Option String
  jobType : JobType
  parameters : String
  (maxRetries scheduledAt : Option Int)
  createdBy : Option String
  priority : Option Int

namespace Tables

variable (t : Tables)

def sessionCancelled (job : Job) : Bool := decide (t.sessionStatus job.sessionId = some .cancelled)

def updateJob (id : String) (p : Job → Bool) (f : Job → Job)
    (keeps : ∀ job, (f job).id = job.id ∧ (f job).sessionId = job.sessionId) : Option Job × Tables :=
  (((t.jobz.get id).filter p).map f, t.updateJobs (fun job => job.id = id && p job) f keeps)

def parentCancelled (parentJob : Option String) : Bool :=
  match parentJob.bind t.jobz.get with
  | none => false
  | some job => decide (job.status = .cancelled) || t.sessionCancelled job

def reopen (sessionId : Option String) : Tables :=
  t.updateSessions (fun session => decide (some session.id = sessionId ∧
      session.status ≠ .cancelled ∧ session.status ≠ .paused))
    (JobSession.become .active) (JobSession.become_id _)

def newJob (id : String) (request : CreateJobRequest) (maxRetries : Nat) (now : Int) : Job where
  id := id
  sessionId := request.sessionId
  jobType := request.jobType.name
  status := .pending
  parameters := request.parameters
  result := none
  retryCount := 0
  maxRetries := maxRetries
  scheduledAt := request.scheduledAt.getD now
  startedAt := none
  completedAt := none
  errorMessage := none
  createdBy := request.createdBy
  priority := request.priority.getD 0
  attempt := 1

def enqueue (id : String) (request : CreateJobRequest) (parentJob : Option String) (now : Int) :
    Except String Job × Tables :=
  if t.sessionStatus request.sessionId = some .cancelled ∨ t.parentCancelled parentJob then
    (.error "job cancelled before enqueue", t)
  else match request.maxRetries.getD 3 with
    | .negSucc _ => (.error "Failed to create job in database", t)
    | .ofNat maxRetries =>
      match t.insertJob (newJob id request maxRetries now) with
      | none => (.error "Failed to create job in database", t)
      | some inserted =>
        (.ok (newJob id request maxRetries now), inserted.reopen request.sessionId)

def claimed (now : Int) (job : Job) : Job :=
  { job with status := .running, startedAt := some now }

def claim (id : String) (now : Int) : Option Job × Tables :=
  t.updateJob id (fun job => job.status = .pending) (claimed now) fun _ => ⟨rfl, rfl⟩

/-- The due jobs, the highest priority first, and what was scheduled first of those. -/
def due (now : Int) : List Job :=
  (t.jobz.rows.filter fun job => job.status = .pending && job.scheduledAt ≤ now).mergeSort
    fun a b => b.priority < a.priority || (a.priority = b.priority && a.scheduledAt ≤ b.scheduledAt)

def claimNext (now : Int) : Option Job × Tables :=
  match (t.due now).head? with
  | none => (none, t)
  | some job => t.claim job.id now

def completed (result : Option String) (now : Int) (job : Job) : Job :=
  { job with
    status := if t.sessionCancelled job then .cancelled else .completed
    completedAt := some now
    result := result
    errorMessage := none }

def complete (id : String) (result : Option String) (now : Int) : Option Job × Tables :=
  t.updateJob id (fun job => job.status ≠ .cancelled) (t.completed result now) fun _ => ⟨rfl, rfl⟩

structure Failure where
  retry : Bool
  retryCount : Nat
  (errorMessage result : String)
  scheduledAt : Int

def failed (failure : Failure) (now : Int) (job : Job) : Job :=
  { job with
    status := if t.sessionCancelled job then .cancelled
      else if failure.retry then .pending else .failed
    retryCount := failure.retryCount
    errorMessage := some failure.errorMessage
    result := some failure.result
    scheduledAt := failure.scheduledAt
    completedAt := if !failure.retry || t.sessionCancelled job then some now else job.completedAt
    attempt := if !t.sessionCancelled job && failure.retry then job.attempt + 1 else job.attempt }

def fail (id : String) (failure : Failure) (now : Int) : Option Job × Tables :=
  t.updateJob id (fun job => job.status ≠ .cancelled) (t.failed failure now) fun _ => ⟨rfl, rfl⟩

def cancelled (now : Int) (job : Job) : Job :=
  { job with status := .cancelled, completedAt := some now }

def cancel (id : String) (now : Int) : Option Job × Tables :=
  t.updateJob id (fun job => job.status.live || decide (job.status = .cancelled)) (cancelled now)
    fun _ => ⟨rfl, rfl⟩

def settledStatus (sessionId : String) : SessionStatus :=
  if t.hasLive sessionId then .active else if t.hasFailed sessionId then .failed else .completed

def settle (sessionId : String) : Tables :=
  t.updateSessions (fun session => decide (session.id = sessionId ∧ session.status ≠ .cancelled ∧
      session.status ≠ .paused ∧ (session.status = .active ∨ t.hasLive sessionId)))
    (JobSession.become (t.settledStatus sessionId)) (JobSession.become_id _)

def cancelledIfPending (now : Int) (job : Job) : Job :=
  if job.status = .pending then cancelled now job else job

theorem cancelledIfPending_keeps (now : Int) (job : Job) :
    (cancelledIfPending now job).id = job.id ∧
      (cancelledIfPending now job).sessionId = job.sessionId := by
  unfold cancelledIfPending
  split
  · exact ⟨rfl, rfl⟩
  · exact ⟨rfl, rfl⟩

def cancelSession (sessionId : String) (now : Int) : Option (List String) × Tables :=
  match t.jobSessionz.get sessionId with
  | none => (none, t)
  | some _ =>
    (some ((t.jobz.rows.filter fun job =>
        job.sessionId = some sessionId && job.status.live).map Job.id),
      (t.updateSessions (·.id = sessionId) (JobSession.become .cancelled) (JobSession.become_id _)).updateJobs
        (fun job => job.sessionId = some sessionId && job.status.live)
        (cancelledIfPending now) (cancelledIfPending_keeps now))

def retried (now : Int) (job : Job) : Job :=
  { job with
    status := .pending
    retryCount := 0
    startedAt := none
    completedAt := none
    errorMessage := none
    result := none
    scheduledAt := now
    attempt := job.attempt + 1 }

def retryable (job : Job) : Bool :=
  decide (job.status = .failed ∧ t.sessionStatus job.sessionId ≠ some .cancelled ∧
    t.sessionStatus job.sessionId ≠ some .paused)

def requeue (id : String) (now : Int) : Option Job × Tables :=
  t.updateJob id t.retryable (retried now) fun _ => ⟨rfl, rfl⟩

def retry (id : String) (now : Int) : Bool × Tables :=
  match (t.requeue id now).1 with
  | none => (false, (t.requeue id now).2)
  | some job => (true, (t.requeue id now).2.updateSessions
      (fun session => some session.id = job.sessionId)
      (JobSession.become .active) (JobSession.become_id _))

def idle (id : Option String) (session : JobSession) : Bool :=
  id.all (session.id = ·) && decide (session.status = .active ∨ session.status = .failed) &&
    !t.hasLive session.id

def closeIdle (id : Option String) : Nat × Tables :=
  ((t.jobSessionz.select (t.idle id)).length,
    t.updateSessions (t.idle id) (JobSession.become .completed) (JobSession.become_id _))

def replayable (job : Job) : Bool :=
  (job.jobType = "ProcessDirectory" || job.jobType = "ProcessFile") &&
    job.retryCount + 1 < job.maxRetries && !t.sessionCancelled job

def recovered (now : Int) (job : Job) : Job :=
  { job with
    status := if t.sessionCancelled job then .cancelled
      else if t.replayable job then .pending else .failed
    retryCount := job.retryCount + 1
    errorMessage := some "job interrupted when its previous runner stopped"
    result := some ("[\x7b\"error_type\":\"job_interrupted\",\"title\":\"job interrupted\"," ++
      "\"detail\":\"the previous runner stopped before this job finished\"\x7d]")
    scheduledAt := now
    startedAt := none
    completedAt := if t.replayable job then none else some now
    attempt := if t.replayable job then job.attempt + 1 else job.attempt }

def recover (now : Int) : Nat × Tables :=
  ((t.jobz.select fun job => job.status = .running).length,
    t.updateJobs (fun job => job.status = .running) (t.recovered now) fun _ => ⟨rfl, rfl⟩)

end Tables

inductive Sql : Type → Type where
  | insertSession (session : JobSession) : Sql (Except String JobSession)
  | enqueue (id : String) (request : CreateJobRequest) (parentJob : Option String) (now : Int) :
    Sql (Except String Job)
  | getJob (id : String) : Sql (Option Job)
  | claim (id : String) (now : Int) : Sql (Option Job)
  | claimNext (now : Int) : Sql (Option Job)
  | complete (id : String) (result : Option String) (now : Int) : Sql (Option Job)
  | fail (id : String) (failure : Tables.Failure) (now : Int) : Sql (Option Job)
  | cancel (id : String) (now : Int) : Sql (Option Job)
  | settle (sessionId : String) : Sql Unit
  | cancelSession (sessionId : String) (now : Int) : Sql (Option (List String))
  | retry (id : String) (now : Int) : Sql Bool
  | closeIdle (id : Option String) : Sql Nat
  | recover (now : Int) : Sql Nat

def Sql.exec : {β : Type} → Sql β → Tables → β × Tables
  | _, .insertSession session, t =>
    match t.insertSession session with
    | none => (.error "failed to create job session", t)
    | some inserted => (.ok session, inserted)
  | _, .enqueue id request parentJob now, t => t.enqueue id request parentJob now
  | _, .getJob id, t => (t.jobz.get id, t)
  | _, .claim id now, t => t.claim id now
  | _, .claimNext now, t => t.claimNext now
  | _, .complete id result now, t => t.complete id result now
  | _, .fail id failure now, t => t.fail id failure now
  | _, .cancel id now, t => t.cancel id now
  | _, .settle sessionId, t => ((), t.settle sessionId)
  | _, .cancelSession sessionId now, t => t.cancelSession sessionId now
  | _, .retry id now, t => t.retry id now
  | _, .closeIdle id, t => t.closeIdle id
  | _, .recover now, t => t.recover now

instance : Machine Sql Tables where
  exec := Sql.exec

abbrev Call (α : Type) := Prog Sql String α

def createJobSession (id : String) (request : CreateJobSessionRequest) : Call JobSession :=
  Prog.attempt (.insertSession
    ⟨id, request.jobType.name, .active, request.batchSize.getD 100, request.createdBy⟩)

def createJob (id : String) (request : CreateJobRequest) (parentJob : Option String) (now : Int) :
    Call Job :=
  Prog.attempt (.enqueue id request parentJob now)

def getJob (id : String) : Call Job := do
  Prog.ofOption "job not found" (← Prog.issue (.getJob id))

def getNextPendingJob (now : Int) : Call (Option Job) := Prog.issue (.claimNext now)

def tryClaimPendingJob (id : String) (now : Int) : Call (Option Job) := Prog.issue (.claim id now)

def settleSession (job : Job) : Call Unit :=
  match job.sessionId with
  | none => pure ()
  | some session => Prog.issue (.settle session)

/-- The end of a mark: its session is settled; where no row was found, the job is read again. -/
def afterMark (id : String) : Option Job → Call Job
  | none => getJob id
  | some job => do
    settleSession job
    return job

def markJobCompleted (id : String) (result : Option String) (now : Int) : Call Job := do
  afterMark id (← Prog.issue (.complete id result now))

def backoff (newRetryCount : Nat) : Int := min (Int.bmod (5 * 2 ^ (newRetryCount - 1)) (2 ^ 64)) 300

def failureOf (current : Job) (detail : Option String) (errorsJson : String) (retryable : Bool)
    (jitter now : Int) : Tables.Failure :=
  let newRetryCount := current.retryCount + 1
  let shouldRetry := retryable && newRetryCount < current.maxRetries
  ⟨shouldRetry, newRetryCount, detail.getD "unknown error", errorsJson,
    if shouldRetry then Int.bmod (now + backoff newRetryCount + jitter) (2 ^ 64)
    else current.scheduledAt⟩

/-- The first error's detail and the errors as json; the clock is read once, and again by the
update. -/
def markJobFailed (id : String) (detail : Option String) (errorsJson : String) (retryable : Bool)
    (jitter now later : Int) : Call Job := do
  let current ← (← Prog.issue (.getJob id)) |>
    Prog.ofOption "Failed to get current job for retry check"
  let failure := failureOf current detail errorsJson retryable jitter now
  afterMark id (← Prog.issue (.fail id failure later))

def cancelJob (id : String) (now : Int) : Call Job := do
  let job ← (← Prog.issue (.cancel id now)) |> Prog.ofOption "failed to cancel job"
  settleSession job
  return job

def cancelSession (sessionId : String) (now : Int) : Call (List String) := do
  Prog.ofOption "failed to cancel session" (← Prog.issue (.cancelSession sessionId now))

inductive JobCall where
  | createJobSession (id : String) (request : CreateJobSessionRequest)
  | createJob (id : String) (request : CreateJobRequest) (parentJob : Option String) (now : Int)
  | tryClaimPendingJob (id : String) (now : Int)
  | getNextPendingJob (now : Int)
  | markJobCompleted (id : String) (result : Option String) (now : Int)
  | markJobFailed (id : String) (detail : Option String) (errorsJson : String) (retryable : Bool)
    (jitter now later : Int)
  | cancelJob (id : String) (now : Int)
  | cancelSession (sessionId : String) (now : Int)
  | retry (id : String) (now : Int)
  | closeIdleSessions (id : Option String)
  | recoverInterrupted (now : Int)

def JobCall.prog : JobCall → Call Unit
  | .createJobSession id request => do let _ ← Jobs.createJobSession id request
  | .createJob id request parentJob now => do let _ ← Jobs.createJob id request parentJob now
  | .tryClaimPendingJob id now => do let _ ← Jobs.tryClaimPendingJob id now
  | .getNextPendingJob now => do let _ ← Jobs.getNextPendingJob now
  | .markJobCompleted id result now => do let _ ← Jobs.markJobCompleted id result now
  | .markJobFailed id detail errorsJson retryable jitter now later => do
    let _ ← Jobs.markJobFailed id detail errorsJson retryable jitter now later
  | .cancelJob id now => do let _ ← Jobs.cancelJob id now
  | .cancelSession sessionId now => do let _ ← Jobs.cancelSession sessionId now
  | .retry id now => do let _ ← Prog.issue (.retry id now)
  | .closeIdleSessions id => do let _ ← Prog.issue (.closeIdle id)
  | .recoverInterrupted now => do let _ ← Prog.issue (.recover now)

end Tomb.Grimoire.Jobs
