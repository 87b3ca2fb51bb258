import Mathlib.Data.List.Induction
import Tomb.Grimoire.Jobs.Lifecycle

/-! The lifecycle of jobs and sessions over whole runs. -/
namespace Tomb.Grimoire.Jobs
open Tomb.Lib

def claimedBy : {β : Type} → Sql β → β → Option Job
  | _, .claim _ _, answer => answer
  | _, .claimNext _, answer => answer
  | _, _, _ => none

def claimOf (event : Event Sql) : Option (String × Nat) :=
  (claimedBy event.command event.answer).map fun job => (job.id, job.attempt)

def owedBy : {β : Type} → Sql β → β → Option String
  | _, .complete _ _ _, answer => answer.bind Job.sessionId
  | _, .fail _ _ _, answer => answer.bind Job.sessionId
  | _, .cancel _ _, answer => answer.bind Job.sessionId
  | _, _, _ => none

/-- Where a call stands: it has read the job that it marks failed, or owes a session its settling. -/
inductive Phase where
  | fresh
  | read (id : String) (job : Job)
  | owes (sessionId : String)
  | done

def Phase.next (phase : Phase) {β : Type} (command : Sql β) (answer : β) : Phase :=
  match owedBy command answer with
  | some sessionId => .owes sessionId
  | none =>
    match phase, command, answer with
    | .fresh, .getJob id, some job => .read id job
    | _, _, _ => .done

/-- What a call may issue next: behind a read the failure that follows from it, and behind a debt
its settling. -/
def Phase.legal : Phase → {β : Type} → Sql β → Prop
  | .fresh, _, .fail _ _ _ => False
  | .fresh, _, .settle _ => False
  | .fresh, _, _ => True
  | .read id job, _, .fail id' failure _ => id' = id ∧ failure.retryCount = job.retryCount + 1 ∧
      (failure.retry = true → job.retryCount + 1 < job.maxRetries)
  | .read _ _, _, _ => False
  | .owes sessionId, _, .settle sessionId' => sessionId' = sessionId
  | .owes _, _, _ => False
  | .done, _, .getJob _ => True
  | .done, _, _ => False

def lifecycle : Protocol Sql (Phase × List (String × Nat)) where
  start := (.fresh, [])
  next stage {_} command answer :=
    (stage.1.next command answer, stage.2 ++ (claimOf ⟨command, answer⟩).toList)
  legal stage {_} command := stage.1.legal command
  final stage _ := ∀ sessionId, stage.1 ≠ .owes sessionId

theorem lifecycle_claims (past : List (Event Sql)) :
    (lifecycle.stage past).2 = past.filterMap claimOf := by
  induction past using List.reverseRecOn with
  | nil => rfl
  | append_singleton past event ih =>
    rw [Protocol.stage_snoc, List.filterMap_append, ← ih]
    change _ ++ (claimOf event).toList = _
    cases made : claimOf event with
    | none => simp [made]
    | some claim => simp [made]

/-- A failure is written by a job that has attempts left or was cancelled, and no recovery takes an
active session's last live job. -/
def timely (t : Tables) (thread : Thread Sql String Unit) : Bool :=
  match thread.prog with
  | .call (.recover _) _ => decide t.RecoversLive
  | .call (.fail _ _ _) _ =>
    match (lifecycle.stage thread.past).1 with
    | .read _ job => decide (job.status = .cancelled ∨ job.retryCount < job.budget)
    | _ => true
  | _ => true

def Timely : Guard Sql Tables String Unit := fun t _ thread _ => timely t thread = true

instance (t : Tables) (before : List (Thread Sql String Unit)) (thread : Thread Sql String Unit)
    (after : List (Thread Sql String Unit)) : Decidable (Timely t before thread after) :=
  inferInstanceAs (Decidable (_ = true))

/-! The calls keep to the protocol. -/

def Phase.behind (answer : Option Job) : Phase :=
  match answer.bind Job.sessionId with
  | some sessionId => .owes sessionId
  | none => .done

theorem settleSession_follows (job : Job) {claims : List (String × Nat)}
    {post : Phase × List (String × Nat) → Except String Unit → Prop}
    (ends : ∀ claims result, post (.done, claims) result) :
    lifecycle.Follows (settleSession job) (.behind (some job), claims) post := by
  unfold settleSession Phase.behind
  rw [Option.bind_some]
  cases job.sessionId with
  | none => exact ends claims _
  | some sessionId => exact ⟨rfl, fun _ => ends _ _⟩

theorem getJob_follows (id : String) {claims : List (String × Nat)}
    {post : Phase × List (String × Nat) → Except String Job → Prop}
    (ends : ∀ claims result, post (.done, claims) result) :
    lifecycle.Follows (getJob id) (.done, claims) post := by
  unfold getJob
  rw [Protocol.follows_bind, Protocol.follows_issue]
  refine ⟨trivial, fun found => ?_⟩
  cases found with
  | none => exact ends _ _
  | some job => exact ends _ _

theorem afterMark_follows (id : String) (answer : Option Job) {claims : List (String × Nat)}
    {post : Phase × List (String × Nat) → Except String Job → Prop}
    (ends : ∀ claims result, post (.done, claims) result) :
    lifecycle.Follows (afterMark id answer) (.behind answer, claims) post := by
  cases answer with
  | none => exact getJob_follows id ends
  | some job =>
    rw [afterMark, Protocol.follows_bind]
    refine settleSession_follows job fun claims result => ?_
    cases result with
    | ok _ => exact ends _ _
    | error message => exact ends _ _

def Settled (stage : Phase × List (String × Nat)) : Prop := ∀ sessionId, stage.1 ≠ .owes sessionId

theorem settled_done (claims : List (String × Nat)) : Settled (.done, claims) := fun _ => nofun

theorem discard_follows {α : Type} {call : Call α} {stage : Phase × List (String × Nat)}
    (follows : lifecycle.Follows call stage fun later _ => Settled later) :
    lifecycle.Follows (call >>= fun _ => pure ()) stage fun later _ => Settled later := by
  rw [Protocol.follows_bind]
  refine follows.imp fun later result settled => ?_
  cases result with
  | ok _ => exact settled
  | error message => exact settled

theorem prog_follows (call : JobCall) :
    lifecycle.Follows call.prog lifecycle.start fun stage _ => Settled stage := by
  cases call with
  | createJobSession id request =>
    refine discard_follows ?_
    unfold Jobs.createJobSession
    rw [Protocol.follows_attempt]
    exact ⟨trivial, fun _ => settled_done _⟩
  | createJob id request parentJob now =>
    refine discard_follows ?_
    unfold Jobs.createJob
    rw [Protocol.follows_attempt]
    exact ⟨trivial, fun _ => settled_done _⟩
  | tryClaimPendingJob id now => exact discard_follows ⟨trivial, fun _ => settled_done _⟩
  | getNextPendingJob now => exact discard_follows ⟨trivial, fun _ => settled_done _⟩
  | markJobCompleted id result now =>
    refine discard_follows ?_
    rw [markJobCompleted, Protocol.follows_bind, Protocol.follows_issue]
    exact ⟨trivial, fun answer => afterMark_follows id answer fun _ _ => settled_done _⟩
  | markJobFailed id detail errorsJson retryable jitter now later =>
    refine discard_follows ?_
    rw [markJobFailed, Protocol.follows_bind, Protocol.follows_issue]
    refine ⟨trivial, fun found => ?_⟩
    dsimp only
    rw [Protocol.follows_bind, Protocol.follows_ofOption]
    refine ⟨?_, ?_⟩
    · rintro current rfl
      dsimp only
      rw [Protocol.follows_bind, Protocol.follows_issue]
      refine ⟨⟨rfl, rfl, fun retry => ?_⟩, fun answer =>
        afterMark_follows id answer fun _ _ => settled_done _⟩
      exact of_decide_eq_true ((Bool.and_eq_true ..).mp retry).2
    · rintro rfl
      exact settled_done _
  | cancelJob id now =>
    refine discard_follows ?_
    rw [cancelJob, Protocol.follows_bind, Protocol.follows_issue]
    refine ⟨trivial, fun answer => ?_⟩
    dsimp only
    rw [Protocol.follows_bind, Protocol.follows_ofOption]
    refine ⟨?_, ?_⟩
    · rintro job rfl
      dsimp only
      rw [Protocol.follows_bind]
      refine settleSession_follows job fun claims result => ?_
      cases result with
      | ok _ => exact settled_done _
      | error message => exact settled_done _
    · rintro rfl
      exact settled_done _
  | cancelSession sessionId now =>
    refine discard_follows ?_
    rw [cancelSession, Protocol.follows_bind, Protocol.follows_issue]
    refine ⟨trivial, fun answer => ?_⟩
    dsimp only
    rw [Protocol.follows_ofOption]
    exact ⟨fun _ _ => settled_done _, fun _ => settled_done _⟩
  | retry id now => exact discard_follows ⟨trivial, fun _ => settled_done _⟩
  | closeIdleSessions id => exact discard_follows ⟨trivial, fun _ => settled_done _⟩
  | recoverInterrupted now => exact discard_follows ⟨trivial, fun _ => settled_done _⟩

/-! What one statement keeps. -/

/-- The row is beyond the attempt, or is no longer pending in it. -/
def Tables.Spent (t : Tables) (claim : String × Nat) : Prop :=
  ∃ job, t.jobz.get claim.1 = some job ∧
    (claim.2 < job.attempt ∨ (claim.2 = job.attempt ∧ job.status ≠ .pending))

/-- The row of a job that was read: its limit is as it was, and it stays cancelled. -/
def Tables.Remembers (t : Tables) (id : String) (job : Job) : Prop :=
  ∃ row, t.jobz.get id = some row ∧ row.maxRetries = job.maxRetries ∧
    (job.status = .cancelled → row.status = .cancelled)

theorem Tables.JobsMove.spent {t t' : Tables} (moves : t.JobsMove t') {claim : String × Nat}
    (spent : t.Spent claim) : t'.Spent claim := by
  obtain ⟨job, found, before⟩ := spent
  obtain ⟨job', found', moves⟩ := moves _ _ found
  refine ⟨job', found', ?_⟩
  obtain ⟨same, pending⟩ | later := moves.attempt
  · rw [same]
    exact before.imp_right fun here => ⟨here.1, fun again => here.2 (pending again)⟩
  · refine .inl ?_
    obtain less | ⟨same, -⟩ := before
    · omega
    · omega

theorem Tables.JobsMove.remembers {t t' : Tables} (moves : t.JobsMove t') {id : String} {job : Job}
    (remembers : t.Remembers id job) : t'.Remembers id job := by
  obtain ⟨row, found, limit, cancelled⟩ := remembers
  obtain ⟨row', found', moves⟩ := moves _ _ found
  exact ⟨row', found', moves.maxRetries.trans limit, fun was => moves.cancelled (cancelled was)⟩

def Fits (t : Tables) : {β : Type} → Sql β → Prop
  | _, .recover _ => t.RecoversLive
  | _, .fail id failure _ => ∀ job ∈ t.jobz, job.id = id → job.status ≠ .cancelled →
    failure.retryCount ≤ job.budget ∧ (failure.retry → failure.retryCount < job.budget)
  | _, _ => True

theorem exec_insertSession (session : JobSession) (t : Tables) :
    t.Kept (Machine.exec (Sql.insertSession session) t).2 none := by
  change t.Kept (Sql.exec (.insertSession session) t).2 none
  delta Sql.exec
  cases inserted : t.insertSession session with
  | none =>
    simp only [inserted]
    exact .rfl
  | some t' =>
    simp only [inserted]
    exact Tables.insertSession_kept inserted

theorem exec_moves {β : Type} (command : Sql β) (t : Tables) :
    t.JobsMove (Machine.exec command t).2 := by
  cases command with
  | insertSession session => exact (exec_insertSession session t).moves
  | enqueue id request parentJob now => exact (t.enqueue_kept id request parentJob now).moves
  | getJob id => exact Tables.Kept.rfl.moves
  | claim id now => exact (t.claim_kept id now).moves
  | claimNext now => exact (t.claimNext_kept now).moves
  | complete id result now => exact (t.complete_kept id result now).moves
  | fail id failure now => exact t.fail_moves id failure now
  | cancel id now => exact (t.cancel_kept id now).moves
  | settle sessionId => exact (t.settle_kept sessionId).moves
  | cancelSession sessionId now => exact (t.cancelSession_kept sessionId now).moves
  | retry id now => exact (t.retry_kept id now).moves
  | closeIdle id => exact (t.closeIdle_kept id).moves
  | recover now => exact t.recover_moves now

theorem exec_kept {β : Type} (command : Sql β) (t : Tables) (fits : Fits t command) :
    t.Kept (Machine.exec command t).2 (owedBy command (Machine.exec command t).1) := by
  cases command with
  | insertSession session => exact exec_insertSession session t
  | enqueue id request parentJob now => exact t.enqueue_kept id request parentJob now
  | getJob id => exact .rfl
  | claim id now => exact t.claim_kept id now
  | claimNext now => exact t.claimNext_kept now
  | complete id result now => exact t.complete_kept id result now
  | fail id failure now => exact t.fail_kept id failure now fits
  | cancel id now => exact t.cancel_kept id now
  | settle sessionId => exact t.settle_kept sessionId
  | cancelSession sessionId now => exact t.cancelSession_kept sessionId now
  | retry id now => exact t.retry_kept id now
  | closeIdle id => exact t.closeIdle_kept id
  | recover now => exact t.recover_kept now fits

theorem claim_spent {t : Tables} {id : String} {now : Int} {job : Job}
    (claimed : (t.claim id now).1 = some job) :
    (∃ old ∈ t.jobz, old.id = job.id ∧ old.sessionId = job.sessionId ∧ old.attempt = job.attempt ∧
      old.status = .pending) ∧ (t.claim id now).2.Spent (job.id, job.attempt) := by
  obtain ⟨old, present, same, pending, rfl⟩ := Tables.updateJob_some _ claimed
  refine ⟨⟨old, present, rfl, rfl, rfl, of_decide_eq_true pending⟩, Tables.claimed now old, ?_,
    .inr ⟨rfl, nofun⟩⟩
  refine (Table.get_eq_some _ _ _).mpr ⟨?_, rfl⟩
  refine (Tables.mem_updateJobs (f := Tables.claimed now) fun _ => ⟨rfl, rfl⟩).mpr
    ⟨old, present, if_pos ?_⟩
  exact (Bool.and_eq_true ..).mpr ⟨decide_eq_true same, pending⟩

theorem claimNext_spent {t : Tables} {now : Int} {job : Job}
    (claimed : (t.claimNext now).1 = some job) :
    (∃ old ∈ t.jobz, old.id = job.id ∧ old.sessionId = job.sessionId ∧ old.attempt = job.attempt ∧
      old.status = .pending) ∧ (t.claimNext now).2.Spent (job.id, job.attempt) := by
  obtain nothing | ⟨id, claims⟩ := t.claimNext_cases now
  · rw [nothing] at claimed
    cases claimed
  · rw [claims] at claimed ⊢
    exact claim_spent claimed

theorem exec_claim {t : Tables} {β : Type} {command : Sql β} {claim : String × Nat}
    (made : claimOf ⟨command, (Machine.exec command t).1⟩ = some claim) :
    (∃ old ∈ t.jobz, old.id = claim.1 ∧ old.attempt = claim.2 ∧ old.status = .pending) ∧
      (Machine.exec command t).2.Spent claim := by
  obtain ⟨job, claimed, rfl⟩ := Option.map_eq_some_iff.mp made
  cases command with
  | claim id now =>
    obtain ⟨⟨old, present, same, -, attempt, pending⟩, spent⟩ := claim_spent claimed
    exact ⟨⟨old, present, same, attempt, pending⟩, spent⟩
  | claimNext now =>
    obtain ⟨⟨old, present, same, -, attempt, pending⟩, spent⟩ := claimNext_spent claimed
    exact ⟨⟨old, present, same, attempt, pending⟩, spent⟩
  | _ => cases claimed

/-! The invariant over the phases and the claims of all calls. -/

abbrev Stage := Phase × List (String × Nat)

structure Held (t : Tables) (stages : List Stage) : Prop where
  nonePending : t.NonePending
  inBudget : t.InBudget
  consistent : ∀ sessionId, t.Consistent sessionId ∨ .owes sessionId ∈ stages.map Prod.fst
  remembers : ∀ id job, .read id job ∈ stages.map Prod.fst → t.Remembers id job
  once : (stages.flatMap Prod.snd).Nodup
  spent : ∀ claim ∈ stages.flatMap Prod.snd, t.Spent claim

theorem Held.perm {t : Tables} {stages stages' : List Stage} (held : Held t stages)
    (same : stages.Perm stages') : Held t stages' where
  nonePending := held.nonePending
  inBudget := held.inBudget
  consistent sessionId := (held.consistent sessionId).imp_right (same.map _).mem_iff.mp
  remembers id job member := held.remembers id job ((same.map _).mem_iff.mpr member)
  once := (same.flatMap_right _).nodup_iff.mp held.once
  spent claim member := held.spent claim ((same.flatMap_right _).mem_iff.mpr member)

theorem fits_of_timely {t : Tables} {thread : Thread Sql String Unit} {β : Type} {command : Sql β}
    {next : β → Call Unit} (called : thread.prog = .call command next)
    (legal : (lifecycle.stage thread.past).1.legal command) (timely_ : timely t thread = true)
    (remembers : ∀ id job, .read id job = (lifecycle.stage thread.past).1 → t.Remembers id job) :
    Fits t command := by
  cases command with
  | recover now =>
    rw [timely, called] at timely_
    exact of_decide_eq_true (p := t.RecoversLive) timely_
  | fail id failure now =>
    rw [timely, called] at timely_
    cases phase : (lifecycle.stage thread.past).1 with
    | read id' job =>
      rw [phase] at legal timely_ remembers
      obtain ⟨rfl, count, again⟩ := legal
      obtain ⟨row, found, limit, cancelled⟩ := remembers id job rfl
      intro other present same notCancelled
      have got := (t.jobz.get_eq_some id other).mpr ⟨present, same⟩
      cases found.symm.trans got
      have budget : row.budget = job.budget := by rw [Job.budget, limit, Job.budget]
      rw [budget, count]
      obtain was | less := of_decide_eq_true timely_
      · exact absurd (cancelled was) notCancelled
      · exact ⟨less, fun retry => Nat.lt_of_lt_of_le (again retry) (Nat.le_max_left ..)⟩
    | fresh =>
      rw [phase] at legal
      exact legal.elim
    | owes sessionId =>
      rw [phase] at legal
      exact legal.elim
    | done =>
      rw [phase] at legal
      exact legal.elim
  | _ => trivial

theorem Phase.next_of_owed {phase : Phase} {β : Type} {command : Sql β} {answer : β}
    {sessionId : String} (owed : owedBy command answer = some sessionId) :
    phase.next command answer = .owes sessionId := by
  unfold Phase.next
  split
  · rename_i other owed'
    cases owed.symm.trans owed'
    rfl
  · rename_i free
    cases owed.symm.trans free

theorem remembers_of_next {t : Tables} {phase : Phase} {β : Type} {command : Sql β} {id : String}
    {job : Job} (next : phase.next command (Machine.exec command t).1 = .read id job) :
    (Machine.exec command t).2.Remembers id job := by
  unfold Phase.next at next
  split at next
  · cases next
  · split at next
    · rename_i id' job' _ found
      cases next
      exact ⟨job, found, rfl, fun cancelled => cancelled⟩
    · cases next

theorem consistent_of_owes {t : Tables} {β : Type} {command : Sql β} {sessionId : String}
    (legal : (Phase.owes sessionId).legal command) :
    (Machine.exec command t).2.Consistent sessionId := by
  cases command with
  | settle sessionId' =>
    obtain rfl : sessionId' = sessionId := legal
    exact t.settle_consistent sessionId'
  | _ => exact legal.elim

theorem fresh_claim {t : Tables} {β : Type} {command : Sql β} {claim : String × Nat}
    (made : claimOf ⟨command, (Machine.exec command t).1⟩ = some claim) : ¬t.Spent claim := by
  obtain ⟨⟨old, present, same, attempt, pending⟩, -⟩ := exec_claim made
  rintro ⟨job, found, beyond⟩
  cases ((t.jobz.get_eq_some claim.1 old).mpr ⟨present, same⟩).symm.trans found
  obtain less | ⟨-, notPending⟩ := beyond
  · omega
  · exact notPending pending

theorem Held.step {t : Tables} {phase : Phase} {claims : List (String × Nat)} {others : List Stage}
    {β : Type} {command : Sql β} (held : Held t ((phase, claims) :: others))
    (legal : phase.legal command) (fits : Fits t command) :
    Held (Machine.exec command t).2
      ((phase.next command (Machine.exec command t).1,
        claims ++ (claimOf ⟨command, (Machine.exec command t).1⟩).toList) :: others) := by
  have kept := exec_kept command t fits
  have once : (claims ++ others.flatMap Prod.snd).Nodup := held.once
  have spent : ∀ claim ∈ claims ++ others.flatMap Prod.snd, t.Spent claim := held.spent
  refine ⟨kept.nonePending held.nonePending, kept.inBudget held.inBudget, fun sessionId => ?_,
    fun id job member => ?_, ?_, fun claim member => ?_⟩
  · obtain consistent | owes := held.consistent sessionId
    · exact (kept.consistent sessionId consistent).imp_right fun owed =>
        List.mem_cons.mpr (.inl (Phase.next_of_owed owed).symm)
    · obtain own | other := List.mem_cons.mp owes
      · cases own
        exact .inl (consistent_of_owes legal)
      · exact .inr (List.mem_cons_of_mem _ other)
  · obtain own | other := List.mem_cons.mp member
    · exact remembers_of_next own.symm
    · exact kept.moves.remembers (held.remembers id job (List.mem_cons_of_mem _ other))
  · change ((claims ++ _) ++ others.flatMap Prod.snd).Nodup
    cases made : claimOf ⟨command, (Machine.exec command t).1⟩ with
    | none =>
      rw [Option.toList_none, List.append_nil]
      exact once
    | some claim =>
      rw [Option.toList_some, List.append_assoc, List.singleton_append]
      refine List.perm_middle.nodup_iff.mpr (List.nodup_cons.mpr ⟨fun before => ?_, once⟩)
      exact fresh_claim made (spent claim before)
  · change claim ∈ (claims ++ _) ++ others.flatMap Prod.snd at member
    cases made : claimOf ⟨command, (Machine.exec command t).1⟩ with
    | none =>
      rw [made, Option.toList_none, List.append_nil] at member
      exact kept.moves.spent (spent claim member)
    | some new =>
      rw [made, Option.toList_some, List.append_assoc, List.singleton_append] at member
      obtain rfl | before := List.mem_cons.mp (List.perm_middle.mem_iff.mp member)
      · exact (exec_claim made).2
      · exact kept.moves.spent (spent claim before)

abbrev JobPool := Pool Sql Tables String Unit

def startCalls (t : Tables) (calls : List JobCall) : JobPool := .start t (calls.map JobCall.prog)

def claims (pool : JobPool) : List (String × Nat) :=
  pool.threads.flatMap fun thread => thread.past.filterMap claimOf

def Quiet (pool : JobPool) : Prop :=
  ∀ thread ∈ pool.threads, thread.status ≠ .running ∨ thread.past = []

def Tables.HasCancelled (t : Tables) (id : String) : Prop :=
  ∃ job, t.jobz.get id = some job ∧ job.status = .cancelled

theorem exec_hasCancelled {β : Type} (command : Sql β) (t : Tables) (id : String)
    (before : t.HasCancelled id) : (Machine.exec command t).2.HasCancelled id := by
  obtain ⟨old, found, was⟩ := before
  obtain ⟨new, found', moves⟩ := exec_moves command t id old found
  exact ⟨new, found', moves.cancelled was⟩

structure Lifecycle (pool : JobPool) : Prop where
  cancelledStays : ∀ later, Pool.Run (fun _ _ => False) Guard.any pool later →
    ∀ job ∈ pool.state.jobz, job.status = .cancelled →
      ∃ job' ∈ later.state.jobz, job'.id = job.id ∧ job'.status = .cancelled
  nonePending : ∀ job ∈ pool.state.jobz, pool.state.sessionCancelled job → job.status ≠ .pending
  noneClaimed : ∀ id now job, (pool.state.claim id now).1 = some job ∨
    (pool.state.claimNext now).1 = some job → pool.state.sessionCancelled job = false
  inBudget : ∀ job ∈ pool.state.jobz, job.retryCount ≤ max job.maxRetries 1
  claimedOnce : (claims pool).Nodup
  active : Quiet pool → ∀ session ∈ pool.state.jobSessionz, session.status ≠ .cancelled →
    session.status ≠ .paused → pool.state.HasJob session.id →
      (session.status = .active ↔ pool.state.hasLive session.id = true)

theorem claims_eq_views (pool : JobPool) :
    claims pool = ((pool.threads.map (Thread.view lifecycle)).map Prod.fst).flatMap Prod.snd := by
  simp only [claims, List.map_map, List.flatMap_map, Function.comp_apply, Thread.view,
    lifecycle_claims]

theorem held_of_timely {t : Tables} (sound : t.Sound) {calls : List JobCall} {pool : JobPool}
    (run : Pool.Run (fun _ _ => False) Timely (startCalls t calls) pool) :
    (∀ thread ∈ pool.threads, thread.Obeys lifecycle) ∧
      Held pool.state ((pool.threads.map (Thread.view lifecycle)).map Prod.fst) := by
  refine Pool.Run.keeps lifecycle (fun t views => Held t (views.map Prod.fst))
    (fun change => change.elim) (fun {t before after thread β command next status} called timely_
      legal _ held => ?_) (fun thread member => ?_) ?_ run
  · have first : Held t (lifecycle.stage thread.past :: (before ++ after).map fun thread =>
        lifecycle.stage thread.past) := by
      refine held.perm ?_
      simp only [List.map_append, List.map_cons, List.map_map]
      exact List.perm_middle
    have fits : Fits t command := fits_of_timely called legal timely_ fun id job read =>
      first.remembers id job (List.mem_cons.mpr (.inl read))
    refine (first.step legal fits).perm ?_
    simp only [List.map_append, List.map_cons, List.map_map]
    exact List.perm_middle.symm
  · obtain ⟨prog, begun, rfl⟩ := List.mem_map.mp member
    obtain ⟨call, -, rfl⟩ := List.mem_map.mp begun
    exact prog_follows call
  · have fresh : ((startCalls t calls).threads.map (Thread.view lifecycle)).map Prod.fst =
        calls.map fun _ => lifecycle.start := by
      simp only [startCalls, Pool.start, List.map_map]
      rfl
    have phases (phase : Phase) (other : phase ≠ .fresh) :
        phase ∉ (calls.map fun _ => lifecycle.start).map Prod.fst := by
      simp only [List.map_map, List.mem_map, not_exists, not_and]
      exact fun _ _ same => other same.symm
    have noClaims : (calls.map fun _ => lifecycle.start).flatMap Prod.snd = [] := by
      simp only [List.flatMap_map, List.flatMap_eq_nil_iff]
      exact fun _ _ => rfl
    rw [fresh]
    refine ⟨sound.nonePending, sound.inBudget, fun sessionId => .inl (sound.consistent sessionId),
      fun id job member => absurd member (phases _ nofun), ?_, ?_⟩
    · rw [noClaims]
      exact List.nodup_nil
    · rw [noClaims]
      exact fun _ member => (nomatch member)

/-- Every interleaving in which the failures and the recoveries are timely keeps the promise. -/
theorem lifecycle_of_timely (t : Tables) (sound : t.Sound) (calls : List JobCall) (pool : JobPool)
    (run : Pool.Run (fun _ _ => False) Timely (startCalls t calls) pool) : Lifecycle pool := by
  obtain ⟨obeys, held⟩ := held_of_timely sound run
  refine ⟨fun later further job present cancelled => ?_, held.nonePending,
    fun id now job either => ?_, fun job present => (held.inBudget job present).1, ?_, fun quiet session member => ?_⟩
  · have found : pool.state.jobz.get job.id = some job :=
      (Table.get_eq_some _ _ _).mpr ⟨present, rfl⟩
    have stays : later.state.HasCancelled job.id :=
      Pool.Run.state_keeps (fun change => change.elim)
        (fun command t => exec_hasCancelled command t job.id) ⟨job, found, cancelled⟩ further
    obtain ⟨job', found, status⟩ := stays
    obtain ⟨there, same⟩ := (Table.get_eq_some _ _ _).mp found
    exact ⟨job', there, same, status⟩
  · have old : ∃ old ∈ pool.state.jobz, old.sessionId = job.sessionId ∧ old.status = .pending := by
      obtain claimed | claimed := either
      · obtain ⟨⟨old, present, -, names, -, pending⟩, -⟩ := claim_spent claimed
        exact ⟨old, present, names, pending⟩
      · obtain ⟨⟨old, present, -, names, -, pending⟩, -⟩ := claimNext_spent claimed
        exact ⟨old, present, names, pending⟩
    obtain ⟨old, present, names, pending⟩ := old
    rw [← Bool.not_eq_true, Tables.sessionCancelled_congr names.symm]
    exact fun cancelled => held.nonePending old present cancelled pending
  · rw [claims_eq_views]
    exact held.once
  · obtain consistent | owes := held.consistent session.id
    · exact consistent session member rfl
    · -- A debt is that of a call that has begun and not ended.
      simp only [List.map_map, List.mem_map, Function.comp_apply] at owes
      obtain ⟨thread, there, owes⟩ := owes
      exfalso
      obtain ended | fresh := quiet thread there
      · exact (obeys thread there).ended ended session.id owes
      · rw [Thread.view, fresh] at owes
        cases owes

def noTables : Tables where
  jobz := ∅
  jobSessionz := ∅
  references _ member := nomatch member

theorem noTables_sound : noTables.Sound :=
  ⟨fun _ member => (nomatch member), fun _ member => (nomatch member),
    fun _ _ member => (nomatch member)⟩

def transcoding : List JobCall := [
  .createJobSession "s" ⟨.transcodeVideo, none, none⟩,
  .createJob "j" ⟨some "s", .transcodeVideo, "{}", none, none, none, none⟩ none 0,
  .tryClaimPendingJob "j" 1]

def transcoded : List JobCall := transcoding ++ [JobCall.markJobCompleted "j" none 2]

theorem transcoded_lifecycle :
    ((startCalls noTables transcoded).schedule [0, 1, 2, 3, 3]).state.jobSessionz.rows =
        [⟨"s", "TranscodeVideo", .completed, 100, none⟩] ∧
      Lifecycle ((startCalls noTables transcoded).schedule [0, 1, 2, 3, 3]) :=
  ⟨by decide, lifecycle_of_timely noTables noTables_sound transcoded _
    (Pool.run_of_admitted (by decide))⟩

def interrupted : List JobCall := transcoding ++ [JobCall.recoverInterrupted 2]

theorem interrupted_session_active : ¬∀ (t : Tables), t.Sound → ∀ (calls : List JobCall)
    (pool : JobPool), Pool.Run (fun _ _ => False) Guard.any (startCalls t calls) pool →
    Lifecycle pool := by
  intro claimed
  have lifecycle := claimed noTables noTables_sound interrupted _
    (Pool.run_schedule _ [0, 1, 2, 3])
  have quiet : Quiet ((startCalls noTables interrupted).schedule [0, 1, 2, 3]) := by
    unfold Quiet
    decide
  have same := lifecycle.active quiet ⟨"s", "TranscodeVideo", .active, 100, none⟩ (by
    change _ ∈ Table.rows _
    decide) (by decide) (by decide) ?_
  · exact absurd (same.mp rfl) (by decide)
  · unfold Tables.HasJob
    change ∃ job ∈ Table.rows _, _
    decide

end Tomb.Grimoire.Jobs
