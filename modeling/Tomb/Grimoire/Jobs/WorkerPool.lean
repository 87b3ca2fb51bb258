import Mathlib.Data.List.Induction
import Tomb.Grimoire.Jobs.Lifecycle
import Tomb.Grimoire.Jobs.Runner

/-! What the passes of a run loop and their workers hold of the pool, at every point of every
interleaving. -/
namespace Tomb.Grimoire.Jobs.WorkerPool
open Tomb.Lib

inductive Reservation where
  | slot
  | permit (class_ : JobClass)
  | key (key : ConflictKey)
  deriving DecidableEq

@[grind =] def takenBy : {β : Type} → PoolCmd β → β → Option Reservation
  | _, .acquire, _ => some .slot
  | _, .reserveClass class_ _, answer => if answer then some (.permit class_) else none
  | _, .reserveKey key, answer => if answer then some (.key key) else none
  | _, _, _ => none

@[grind =] def givenBy : {β : Type} → PoolCmd β → β → Option Reservation
  | _, .dropPermit, _ => some .slot
  | _, .dropClassPermit class_, _ => some (.permit class_)
  | _, .removeKey key, _ => some (.key key)
  | _, _, _ => none

def permitFor (poolSize : Nat) (jobType : JobType) : Option JobClass :=
  (classCap (jobClass jobType) poolSize).map fun _ => jobClass jobType

/-- Where a pass stands: what it holds, the job that it has claimed while that is processed, the
candidates that it has read, and all that it has taken and given back. -/
structure Holding where
  slot : Bool
  permit : Option JobClass
  key : Option ConflictKey
  job : Option Job
  candidates : List Job
  (took gave : List Reservation)

namespace Holding

variable (holding : Holding)

def held : List Reservation :=
  (if holding.slot then [.slot] else []) ++ holding.permit.toList.map .permit ++
    holding.key.toList.map .key

structure At (slot : Bool) (permit : Option JobClass) (key : Option ConflictKey)
    (job : Option Job) : Prop where
  slot : holding.slot = slot
  permit : holding.permit = permit
  key : holding.key = key
  job : holding.job = job

section Protocol

variable {N : Type} (fromStr : String → Option (Json N)) (poolSize : Nat)

def move : {β : Type} → PoolCmd β → β → Holding
  | _, .acquire, _ => { holding with slot := true }
  | _, .peekPendingJobs _ _ _, .ok candidates => { holding with candidates := candidates }
  | _, .reserveClass class_ _, true => { holding with permit := some class_ }
  | _, .dropClassPermit _, _ => { holding with permit := none }
  | _, .reserveKey key, true => { holding with key := some key }
  | _, .removeKey _, _ => { holding with key := none }
  | _, .tryClaimPendingJob _ _ _, .ok (some job) =>
    { holding with job := some job, key := conflictKeyFor fromStr job }
  | _, .processJob _ _, _ => { holding with job := none }
  | _, .dropPermit, _ => { holding with slot := false }
  | _, _, _ => holding

def Fits (job : Job) : Prop :=
  ∃ jobType, JobType.parse job.jobType = some jobType ∧
    holding.permit = permitFor poolSize jobType ∧ holding.key = conflictKeyFor fromStr job

/-- A candidate is claimed with its own reservations only, and what is given back is held. -/
def legal : {β : Type} → PoolCmd β → Prop
  | _, .acquire => holding.At false none none none
  | _, .peekPendingJobs _ _ _ => holding.At true none none none
  | _, .reserveClass class_ cap => holding.At true none none none ∧
      classCap class_ poolSize = some cap
  | _, .dropClassPermit class_ => holding.permit = some class_ ∧ holding.job = none
  | _, .reserveKey key => holding.At true (permitFor poolSize key.1) none none
  | _, .removeKey key => holding.key = some key ∧ holding.job = none
  | _, .tryClaimPendingJob id _ _ => holding.slot = true ∧ holding.job = none ∧
      ∃ candidate ∈ holding.candidates, candidate.id = id ∧
        holding.Fits fromStr poolSize candidate
  | _, .processJob job _ => holding.job = some job
  | _, .dropPermit => holding.At true none none none

def next {β : Type} (command : PoolCmd β) (answer : β) : Holding :=
  { holding.move fromStr command answer with
    took := holding.took ++ (takenBy command answer).toList
    gave := holding.gave ++ (givenBy command answer).toList }

end Protocol

end Holding

section Protocol

variable {N : Type} (fromStr : String → Option (Json N)) (poolSize : Nat)

def reservations : Protocol PoolCmd Holding where
  start := ⟨false, none, none, none, [], [], []⟩
  next holding {_} command answer := holding.next fromStr command answer
  legal holding {_} command := holding.legal fromStr poolSize command
  final holding _ := holding.At false none none none

/-! Every pass keeps to the protocol. -/

variable {fromStr poolSize} {fortune : Fortune} {holding : Holding} {permit : Option JobClass}
  {key : Option ConflictKey}

variable {post : Holding → Except String Unit → Prop}

theorem dropClassPermit_follows (here : holding.At true permit key none)
    (ends : ∀ later : Holding, later.At true none key none →
      later.candidates = holding.candidates → post later (.ok ())) :
    (reservations fromStr poolSize).Follows (dropClassPermit permit) holding post := by
  cases permit with
  | none => exact ends holding here rfl
  | some class_ => exact ⟨⟨here.permit, here.job⟩, fun _ =>
      ends _ ⟨here.slot, rfl, here.key, here.job⟩ rfl⟩

theorem removeKey_follows (here : holding.At true permit key none)
    (ends : ∀ later : Holding, later.At true permit none none →
      later.candidates = holding.candidates → post later (.ok ())) :
    (reservations fromStr poolSize).Follows (removeKey key) holding post := by
  cases key with
  | none => exact ends holding here rfl
  | some key => exact ⟨⟨here.key, here.job⟩, fun _ =>
      ends _ ⟨here.slot, here.permit, rfl, here.job⟩ rfl⟩

theorem reserveKey_follows {post : Holding → Except String Bool → Prop}
    (here : holding.At true permit none none)
    (own : ∀ k, key = some k → permit = permitFor poolSize k.1)
    (reserved : ∀ later : Holding, later.At true permit key none →
      later.candidates = holding.candidates → post later (.ok true))
    (busy : ∀ later : Holding, later.At true permit none none →
      later.candidates = holding.candidates → post later (.ok false)) :
    (reservations fromStr poolSize).Follows (reserveKey key) holding post := by
  cases key with
  | none => exact reserved holding here rfl
  | some key =>
    have fits : holding.At true (permitFor poolSize key.1) none none := own key rfl ▸ here
    refine ⟨fits, fun answer => ?_⟩
    cases answer with
    | true => exact reserved _ ⟨here.slot, here.permit, rfl, here.job⟩ rfl
    | false => exact busy _ ⟨here.slot, here.permit, here.key, here.job⟩ rfl

theorem conflictKeyFor_type {job : Job} {key : ConflictKey}
    (names : conflictKeyFor fromStr job = some key) : JobType.parse job.jobType = some key.1 := by
  rw [conflictKeyFor, Option.bind_eq_bind, Option.bind_eq_some_iff] at names
  obtain ⟨jobType, parsed, names⟩ := names
  rw [parsed]
  have named {type : JobType} {params : Option (Json N)} {text : Json N → Option String}
      (found : (do some (type, ← text (← params))) = some key) : type = key.1 := by
    obtain ⟨json, -, found⟩ := Option.bind_eq_some_iff.mp found
    obtain ⟨part, -, found⟩ := Option.bind_eq_some_iff.mp found
    cases found
    rfl
  split at names
  · rw [named names]
  · cases names
    rfl
  · cases names
    rfl
  · cases names
    rfl
  · rw [named names]
  · rw [named names]
  · rw [named names]
  · rw [named names]
  · cases names

/-- A search ends with a claimed job and its reservations, or with the slot only. -/
def Ends (fromStr : String → Option (Json N)) (later : Holding) :
    Except String (Option (Job × Option JobClass)) → Prop
  | .ok (some (job, permit)) => later.At true permit (conflictKeyFor fromStr job) (some job)
  | _ => later.At true none none none

theorem claimCandidate_follows {candidate : Job} {jobType : JobType}
    {rest : PoolCall (Option (Job × Option JobClass))} (here : holding.At true permit none none)
    (read : candidate ∈ holding.candidates) (parsed : JobType.parse candidate.jobType = some jobType)
    (own : permit = permitFor poolSize jobType)
    (goes : ∀ later : Holding, later.At true none none none →
      later.candidates = holding.candidates →
        (reservations fromStr poolSize).Follows rest later (Ends fromStr)) :
    (reservations fromStr poolSize).Follows (claimCandidate fromStr fortune candidate permit rest)
      holding (Ends fromStr) := by
  rw [claimCandidate, Protocol.follows_bind]
  refine reserveKey_follows here (fun key names => ?_) (fun later there same => ?_)
    fun later there same => ?_
  · rw [own, Option.some.inj (parsed.symm.trans (conflictKeyFor_type names))]
  · dsimp only
    rw [if_pos rfl, Protocol.follows_bind]
    have fits : later.Fits fromStr poolSize candidate :=
      ⟨jobType, parsed, there.permit.trans own, there.key⟩
    refine ⟨⟨there.slot, there.job, candidate, same ▸ read, rfl, fits⟩, fun answer => ?_⟩
    match answer with
    | .error message =>
      rw [Protocol.follows_ret]
      dsimp only
      rw [Protocol.follows_bind]
      refine removeKey_follows ⟨there.slot, there.permit, there.key, there.job⟩
        fun freed here _ => ?_
      dsimp only
      rw [Protocol.follows_bind]
      exact dropClassPermit_follows here fun last here _ => here
    | .ok (some job) => exact ⟨there.slot, there.permit, rfl, rfl⟩
    | .ok none =>
      rw [Protocol.follows_ret]
      dsimp only
      rw [Protocol.follows_bind]
      refine removeKey_follows ⟨there.slot, there.permit, there.key, there.job⟩
        fun freed here keeps => ?_
      dsimp only
      rw [Protocol.follows_bind]
      exact dropClassPermit_follows here fun last here keeps' =>
        goes last here (keeps'.trans (keeps.trans same))
  · dsimp only
    rw [if_neg Bool.false_ne_true, Protocol.follows_bind]
    exact dropClassPermit_follows there fun last here keeps => goes last here (keeps.trans same)

theorem claimFirst_follows {candidates : List Job} (here : holding.At true none none none)
    (read : ∀ candidate ∈ candidates, candidate ∈ holding.candidates) :
    (reservations fromStr poolSize).Follows (claimFirst fromStr poolSize fortune candidates) holding
      (Ends fromStr) := by
  induction candidates generalizing holding with
  | nil => exact here
  | cons candidate rest ih =>
    have goes (later : Holding) (there : later.At true none none none)
        (same : later.candidates = holding.candidates) :
        (reservations fromStr poolSize).Follows (claimFirst fromStr poolSize fortune rest) later
          (Ends fromStr) :=
      ih there fun other member => same ▸ read other (List.mem_cons_of_mem _ member)
    have own := read candidate List.mem_cons_self
    rw [claimFirst]
    split
    · exact goes holding here rfl
    · rename_i jobType parsed
      split
      · rename_i cap capped
        rw [Protocol.follows_bind]
        refine ⟨⟨here, capped⟩, fun answer => ?_⟩
        cases answer with
        | true =>
          refine claimCandidate_follows ⟨here.slot, rfl, here.key, here.job⟩ own parsed ?_ goes
          rw [permitFor, capped]
          rfl
        | false => exact goes _ ⟨here.slot, here.permit, here.key, here.job⟩ rfl
      · rename_i free
        refine claimCandidate_follows here own parsed ?_ goes
        rw [permitFor, free]
        rfl

theorem pass_follows : (reservations fromStr poolSize).Follows (pass fromStr poolSize fortune)
    (reservations fromStr poolSize).start fun later result =>
      (reservations fromStr poolSize).final later (statusOf result) := by
  have gives (later : Holding) (there : later.At true none none none) :
      (reservations fromStr poolSize).Follows (Prog.issue .dropPermit : PoolCall Unit) later
        fun later result => (reservations fromStr poolSize).final later (statusOf result) :=
    ⟨there, fun _ => ⟨rfl, there.permit, there.key, there.job⟩⟩
  rw [pass, Protocol.follows_bind]
  refine ⟨⟨rfl, rfl, rfl, rfl⟩, fun _ => ?_⟩
  rw [Protocol.follows_ret]
  dsimp only
  rw [Protocol.follows_bind, Protocol.follows_result, claimNextUnblockedJob, Protocol.follows_bind,
    Protocol.follows_attempt]
  refine ⟨⟨rfl, rfl, rfl, rfl⟩, fun answer => ?_⟩
  cases answer with
  | error message => exact gives _ ⟨rfl, rfl, rfl, rfl⟩
  | ok candidates =>
    apply Protocol.Follows.imp
    · exact claimFirst_follows ⟨rfl, rfl, rfl, rfl⟩ fun _ member => member
    intro later result ends
    match result with
    | .error _ => exact gives later ends
    | .ok none => exact gives later ends
    | .ok (some (job, permit)) =>
      dsimp only
      rw [worker, processJobSafely, Protocol.follows_bind, Protocol.follows_bind]
      refine ⟨ends.job, fun answer => ?_⟩
      have done : (later.next fromStr (.processJob job (fortune.outcome job)) answer).At true permit
          (conflictKeyFor fromStr job) none := ⟨ends.slot, ends.permit, ends.key, rfl⟩
      have finish : ∀ later : Holding, later.At true permit (conflictKeyFor fromStr job) none →
          (reservations fromStr poolSize).Follows
            (do
              dropClassPermit permit
              removeKey (conflictKeyFor fromStr job)
              Prog.issue .dropPermit : PoolCall Unit) later
            fun later result => (reservations fromStr poolSize).final later (statusOf result) := by
        intro later there
        rw [Protocol.follows_bind]
        refine dropClassPermit_follows there fun later there _ => ?_
        dsimp only
        rw [Protocol.follows_bind]
        exact removeKey_follows there fun later there _ => gives later there
      cases answer with
      | returned success => exact finish _ done
      | panicked => exact finish _ done

end Protocol

/-! What a step does to the pool and to what its pass holds. -/

def timesBusy (busyKeys : Finset ConflictKey) (key : ConflictKey) : Int :=
  if key ∈ busyKeys then 1 else 0

def taken (poolSize : Nat) (runner : Runner) : Reservation → Int
  | .slot => poolSize - runner.permits
  | .permit class_ => runner.classCounts class_
  | .key key => timesBusy runner.busyKeys key

def ready : {β : Type} → PoolCmd β → Runner → Prop
  | _, .acquire, runner => 0 < runner.permits
  | _, _, _ => True

def obtainedBy : {β : Type} → PoolCmd β → β → Option Job
  | _, .tryClaimPendingJob _ _ _, .ok answer => answer
  | _, _, _ => none

namespace Holding

variable {holding : Holding}

theorem count_held (r : Reservation) : holding.held.count r = match r with
    | .slot => if holding.slot then 1 else 0
    | .permit class_ => if holding.permit = some class_ then 1 else 0
    | .key key => if holding.key = some key then 1 else 0 := by
  obtain ⟨slot, permit, key, -, -, -, -⟩ := holding
  cases slot <;> cases permit <;> cases key <;> cases r <;> simp [held, List.count_cons]

theorem held_next {N : Type} {fromStr : String → Option (Json N)} {poolSize : Nat} {β : Type}
    {command : PoolCmd β} {answer : β} (legal : holding.legal fromStr poolSize command)
    (obtains : ∀ job, obtainedBy command answer = some job →
      holding.key = conflictKeyFor fromStr job) (r : Reservation) :
    (holding.next fromStr command answer).held.count r + (givenBy command answer).toList.count r =
      holding.held.count r + (takenBy command answer).toList.count r := by
  simp only [count_held]
  cases command with
  | acquire =>
    have here : holding.At false none none none := legal
    cases r <;> simp [next, move, givenBy, takenBy, here.slot]
  | peekPendingJobs limit now fault =>
    cases answer <;> cases r <;> simp [next, move, givenBy, takenBy]
  | reserveClass class_ cap =>
    have permit : holding.permit = none := legal.1.permit
    cases answer <;> cases r <;> simp [next, move, givenBy, takenBy, permit, List.count_cons]
  | dropClassPermit class_ =>
    have permit : holding.permit = some class_ := legal.1
    cases r <;> simp [next, move, givenBy, takenBy, permit, List.count_cons]
  | reserveKey key =>
    have none_ : holding.key = none := legal.key
    cases answer <;> cases r <;> simp [next, move, givenBy, takenBy, none_, List.count_cons]
  | removeKey key =>
    have own : holding.key = some key := legal.1
    cases r <;> simp [next, move, givenBy, takenBy, own, List.count_cons]
  | tryClaimPendingJob id now fault =>
    match answer with
    | .error message => cases r <;> simp [next, move, givenBy, takenBy]
    | .ok none => cases r <;> simp [next, move, givenBy, takenBy]
    | .ok (some job) => cases r <;> simp [next, move, givenBy, takenBy, obtains job rfl]
  | processJob job outcome => cases r <;> simp [next, move, givenBy, takenBy]
  | dropPermit =>
    have slot : holding.slot = true := legal.slot
    cases r <;> simp [next, move, givenBy, takenBy, slot]

end Holding

theorem exec_taken {poolSize : Nat} {runner : Runner} {β : Type} {command : PoolCmd β}
    (enabled : ready command runner)
    (given : ∀ r, givenBy command (Machine.exec command runner).1 = some r →
      1 ≤ taken poolSize runner r) (r : Reservation) :
    taken poolSize (Machine.exec command runner).2 r +
        (givenBy command (Machine.exec command runner).1).toList.count r =
      taken poolSize runner r +
        (takenBy command (Machine.exec command runner).1).toList.count r := by
  cases command with
  | acquire =>
    have free : 0 < runner.permits := enabled
    cases r <;> simp [Machine.exec, PoolCmd.exec, taken, givenBy, takenBy]
    omega
  | peekPendingJobs limit now fault =>
    cases fault <;> cases r <;> simp [Machine.exec, PoolCmd.exec, taken, givenBy, takenBy]
  | reserveClass class_ cap =>
    change taken poolSize (runner.reserveClass class_ cap).2 r + _ =
      _ + ((takenBy (.reserveClass class_ cap) (runner.reserveClass class_ cap).1).toList.count r : Int)
    unfold Runner.reserveClass
    split
    · simp [givenBy, takenBy]
    · cases r with
      | permit class' =>
        by_cases same : class_ = class'
        · subst same
          simp [taken, givenBy, takenBy, Runner.countClass]
        · simp [taken, givenBy, takenBy, Runner.countClass, same, Ne.symm same]
      | _ => simp [taken, givenBy, takenBy, Runner.countClass]
  | dropClassPermit class_ =>
    have one : 1 ≤ (runner.classCounts class_ : Int) := given (.permit class_) rfl
    change taken poolSize (runner.countClass class_ (· - 1)) r + _ = _
    cases r with
    | permit class' =>
      by_cases same : class_ = class'
      · subst same
        simp [taken, givenBy, takenBy, Runner.countClass]
        omega
      · simp [taken, givenBy, takenBy, Runner.countClass, same, Ne.symm same]
    | _ => simp [taken, givenBy, takenBy, Runner.countClass]
  | reserveKey key =>
    change taken poolSize (runner.reserveKey key).2 r + _ =
      _ + ((takenBy (.reserveKey key) (runner.reserveKey key).1).toList.count r : Int)
    unfold Runner.reserveKey
    split
    · simp [givenBy, takenBy]
    · rename_i fresh
      cases r with
      | key other =>
        by_cases same : key = other
        · subst same
          simp [taken, timesBusy, givenBy, takenBy, fresh]
        · simp [taken, timesBusy, givenBy, takenBy, same, Ne.symm same]
      | _ => simp [taken, givenBy, takenBy]
  | removeKey key =>
    have busy : key ∈ runner.busyKeys := by
      by_contra absent
      have one : 1 ≤ taken poolSize runner (.key key) := given (.key key) rfl
      simp [taken, timesBusy, absent] at one
    cases r with
    | key other =>
      by_cases same : key = other
      · subst same
        simp [Machine.exec, PoolCmd.exec, taken, timesBusy, givenBy, takenBy, busy]
      · simp [Machine.exec, PoolCmd.exec, taken, timesBusy, givenBy, takenBy, same, Ne.symm same]
    | _ => simp [Machine.exec, PoolCmd.exec, taken, givenBy, takenBy]
  | tryClaimPendingJob id now fault =>
    cases fault <;> cases r <;>
      simp [Machine.exec, PoolCmd.exec, Runner.tryClaimPendingJob, taken, givenBy, takenBy]
  | processJob job outcome => simp [Machine.exec, PoolCmd.exec, givenBy, takenBy]
  | dropPermit =>
    cases r <;> simp [Machine.exec, PoolCmd.exec, taken, givenBy, takenBy]
    omega


/-! The invariant over all that the passes hold. -/

/-- An id names one job, whose type and parameters no statement changes. -/
def Labelled (label : String → String × String) (t : Tables) : Prop :=
  ∀ job ∈ t.jobz, label job.id = (job.jobType, job.parameters)

section Labelled

variable {label : String → String × String} {t : Tables}

theorem labelled_updateJobs (labelled : Labelled label t) {p : Job → Bool} {f : Job → Job}
    (keeps : ∀ job, (f job).id = job.id ∧ (f job).sessionId = job.sessionId)
    (same : ∀ job, ((f job).jobType, (f job).parameters) = (job.jobType, job.parameters)) :
    Labelled label (t.updateJobs p f keeps) := fun job member => by
  obtain ⟨old, present, rfl⟩ := (Tables.mem_updateJobs keeps).mp member
  split
  · rw [(keeps old).1, same old]
    exact labelled old present
  · exact labelled old present

theorem labelled_claim (labelled : Labelled label t) (id : String) (now : Int) :
    Labelled label (t.claim id now).2 :=
  labelled_updateJobs (f := Tables.claimed now) labelled (fun _ => ⟨rfl, rfl⟩) fun _ => rfl

end Labelled

section Invariant

variable {N : Type} (fromStr : String → Option (Json N)) (poolSize : Nat)
  (label : String → String × String)

/-- What is given back was taken, and the rest is held; a job in processing has its reservations. -/
structure Sound (holding : Holding) : Prop where
  ledger : holding.took.Perm (holding.gave ++ holding.held)
  labelled : ∀ candidate ∈ holding.candidates,
    label candidate.id = (candidate.jobType, candidate.parameters)
  running : ∀ job, holding.job = some job →
    holding.slot = true ∧ holding.Fits fromStr poolSize job

structure Accounts (runner : Runner) (holdings : List Holding) : Prop where
  labelled : Labelled label runner.tables
  balanced : Balanced Holding.held (taken poolSize runner) holdings
  capped : ∀ class_ cap, classCap class_ poolSize = some cap → runner.classCounts class_ ≤ cap
  sound : ∀ holding ∈ holdings, Sound fromStr poolSize label holding

variable {fromStr poolSize label} {runner : Runner} {holding : Holding} {others : List Holding}

theorem Accounts.perm {holdings holdings' : List Holding}
    (accounts : Accounts fromStr poolSize label runner holdings)
    (same : holdings.Perm holdings') : Accounts fromStr poolSize label runner holdings' where
  labelled := accounts.labelled
  balanced := accounts.balanced.perm same
  capped := accounts.capped
  sound holding member := accounts.sound holding (same.mem_iff.mpr member)

theorem obtained_fits {β : Type} {command : PoolCmd β} {job : Job}
    (legal : holding.legal fromStr poolSize command) (labelled : Labelled label runner.tables)
    (sound : Sound fromStr poolSize label holding)
    (obtained : obtainedBy command (Machine.exec command runner).1 = some job) :
    holding.slot = true ∧ holding.Fits fromStr poolSize job := by
  cases command with
  | tryClaimPendingJob id now fault =>
    obtain ⟨slot, -, candidate, read, same, jobType, parsed, permit, key⟩ := legal
    cases fault with
    | some message => cases obtained
    | none =>
      have claimed : (runner.tables.claim id now).1 = some job := obtained
      obtain ⟨old, present, named, -, rfl⟩ := Tables.updateJob_some _ claimed
      have type : (old.jobType, old.parameters) = (candidate.jobType, candidate.parameters) := by
        rw [← labelled old present, named, ← same]
        exact sound.labelled candidate read
      obtain ⟨sameType, sameParameters⟩ := Prod.mk.inj type
      refine ⟨slot, jobType, sameType ▸ parsed, permit, key.trans ?_⟩
      simp only [conflictKeyFor, Tables.claimed, sameType, sameParameters]
  | _ => cases obtained

variable {β : Type}

theorem labelled_exec (command : PoolCmd β) (labelled : Labelled label runner.tables) :
    Labelled label (Machine.exec command runner).2.tables := by
  cases command with
  | peekPendingJobs limit now fault => cases fault <;> exact labelled
  | reserveClass class_ cap =>
    change Labelled label (runner.reserveClass class_ cap).2.tables
    unfold Runner.reserveClass
    split <;> exact labelled
  | reserveKey key =>
    change Labelled label (runner.reserveKey key).2.tables
    unfold Runner.reserveKey
    split <;> exact labelled
  | tryClaimPendingJob id now fault =>
    cases fault with
    | none => exact labelled_claim labelled id now
    | some message => exact labelled
  | _ => exact labelled

theorem capped_exec {command : PoolCmd β} (legal : holding.legal fromStr poolSize command)
    (capped : ∀ class_ cap, classCap class_ poolSize = some cap → runner.classCounts class_ ≤ cap)
    (class_ : JobClass) (cap : Nat) (limit : classCap class_ poolSize = some cap) :
    (Machine.exec command runner).2.classCounts class_ ≤ cap := by
  have before := capped class_ cap limit
  cases command with
  | peekPendingJobs limit now fault => cases fault <;> exact before
  | reserveClass class' cap' =>
    change (runner.reserveClass class' cap').2.classCounts class_ ≤ cap
    unfold Runner.reserveClass
    split
    · exact before
    · rename_i room
      by_cases same : class_ = class'
      · subst same
        cases limit.symm.trans legal.2
        simp only [Runner.countClass, Function.update_self]
        omega
      · simp only [Runner.countClass, Function.update_of_ne same]
        exact before
  | dropClassPermit class' =>
    change (runner.countClass class' (· - 1)).classCounts class_ ≤ cap
    by_cases same : class_ = class'
    · subst same
      simp only [Runner.countClass, Function.update_self]
      omega
    · simp only [Runner.countClass, Function.update_of_ne same]
      exact before
  | reserveKey key =>
    change (runner.reserveKey key).2.classCounts class_ ≤ cap
    unfold Runner.reserveKey
    split <;> exact before
  | tryClaimPendingJob id now fault => cases fault <;> exact before
  | _ => exact before

theorem held_given {command : PoolCmd β} {answer : β} {r : Reservation}
    (legal : holding.legal fromStr poolSize command) (given : givenBy command answer = some r) :
    0 < holding.held.count r := by
  rw [Holding.count_held]
  cases command with
  | dropClassPermit class_ =>
    cases given
    exact Nat.lt_of_lt_of_eq Nat.one_pos (if_pos legal.1).symm
  | removeKey key =>
    cases given
    exact Nat.lt_of_lt_of_eq Nat.one_pos (if_pos legal.1).symm
  | dropPermit =>
    cases given
    exact Nat.lt_of_lt_of_eq Nat.one_pos (if_pos legal.slot).symm
  | _ => cases given

theorem labelled_next (command : PoolCmd β) (labelled : Labelled label runner.tables)
    (sound : Sound fromStr poolSize label holding) (candidate : Job) (member : candidate ∈
      (holding.next fromStr command (Machine.exec command runner).1).candidates) :
    label candidate.id = (candidate.jobType, candidate.parameters) := by
  have old := sound.labelled candidate
  cases command with
  | peekPendingJobs limit now fault =>
    cases fault with
    | none =>
      have due := (List.mergeSort_perm ..).mem_iff.mp (List.mem_of_mem_take member)
      exact labelled candidate (List.mem_filter.mp due).1
    | some message => exact old member
  | reserveClass class_ cap =>
    generalize (Machine.exec (PoolCmd.reserveClass class_ cap) runner).1 = answer at member
    cases answer <;> exact old member
  | reserveKey key =>
    generalize (Machine.exec (PoolCmd.reserveKey key) runner).1 = answer at member
    cases answer <;> exact old member
  | tryClaimPendingJob id now fault =>
    generalize (Machine.exec (PoolCmd.tryClaimPendingJob id now fault) runner).1 = answer at member
    match answer with
    | .error message => exact old member
    | .ok none => exact old member
    | .ok (some job) => exact old member
  | _ => exact old member

theorem running_next {command : PoolCmd β}
    (legal : holding.legal fromStr poolSize command) (labelled : Labelled label runner.tables)
    (sound : Sound fromStr poolSize label holding) (job : Job)
    (running : (holding.next fromStr command (Machine.exec command runner).1).job = some job) :
    (holding.next fromStr command (Machine.exec command runner).1).slot = true ∧
      (holding.next fromStr command (Machine.exec command runner).1).Fits fromStr poolSize job := by
  have idle (none_ : holding.job = none) (still : holding.job = some job) {goal : Prop} : goal := by
    cases none_.symm.trans still
  cases command with
  | acquire => exact idle legal.job running
  | peekPendingJobs limit now fault =>
    cases fault <;> exact idle legal.job running
  | reserveClass class_ cap =>
    generalize (Machine.exec (PoolCmd.reserveClass class_ cap) runner).1 = answer at running ⊢
    cases answer <;> exact idle legal.1.job running
  | dropClassPermit class_ => exact idle legal.2 running
  | reserveKey key =>
    generalize (Machine.exec (PoolCmd.reserveKey key) runner).1 = answer at running ⊢
    cases answer <;> exact idle legal.job running
  | removeKey key => exact idle legal.2 running
  | tryClaimPendingJob id now fault =>
    have fits (got : Job) := @obtained_fits _ fromStr poolSize label runner holding _ _ got legal
      labelled sound
    generalize (Machine.exec (PoolCmd.tryClaimPendingJob id now fault) runner).1 = answer
      at running fits ⊢
    match answer with
    | .error message => exact idle legal.2.1 running
    | .ok none => exact idle legal.2.1 running
    | .ok (some got) =>
      obtain rfl : got = job := Option.some.inj running
      obtain ⟨slot, jobType, parsed, permit, -⟩ := fits got rfl
      exact ⟨slot, jobType, parsed, permit, rfl⟩
  | processJob job' outcome => cases running
  | dropPermit => exact idle legal.job running

theorem Accounts.step (accounts : Accounts fromStr poolSize label runner (holding :: others)) {command : PoolCmd β} (legal : holding.legal fromStr poolSize command)
    (enabled : ready command runner) :
    Accounts fromStr poolSize label (Machine.exec command runner).2
      (holding.next fromStr command (Machine.exec command runner).1 :: others) := by
  have sound := accounts.sound holding List.mem_cons_self
  have obtains (job : Job) (got : obtainedBy command (Machine.exec command runner).1 = some job) :
      holding.key = conflictKeyFor fromStr job := by
    obtain ⟨-, _, -, -, key⟩ := obtained_fits legal accounts.labelled sound got
    exact key
  have moved := Holding.held_next legal obtains
  have enough (r : Reservation)
      (given : givenBy command (Machine.exec command runner).1 = some r) :
      1 ≤ taken poolSize runner r := by
    have own := held_given legal given
    have all := accounts.balanced r
    rw [List.flatMap_cons, List.count_append] at all
    omega
  have shared := exec_taken enabled enough
  refine ⟨labelled_exec command accounts.labelled, ?_, capped_exec legal accounts.capped,
    List.forall_mem_cons.mpr ⟨?_, fun other member =>
      accounts.sound other (List.mem_cons_of_mem _ member)⟩⟩
  · refine accounts.balanced.step fun r => ?_
    have movedR := moved r
    have sharedR := shared r
    omega
  · refine ⟨List.perm_iff_count.mpr fun r => ?_, labelled_next command accounts.labelled sound,
      running_next legal accounts.labelled sound⟩
    have before := List.perm_iff_count.mp sound.ledger r
    have movedR := moved r
    rw [List.count_append] at before ⊢
    change (holding.took ++ _).count r = (holding.gave ++ _).count r + _
    rw [List.count_append, List.count_append]
    omega

end Invariant

/-! The pool over whole runs. -/

abbrev PassThread := Thread PoolCmd String Unit

abbrev RunnerPool := Pool PoolCmd Runner String Unit

def inProcess : {β : Type} → Option Job → PoolCmd β → β → Option Job
  | _, _, .tryClaimPendingJob _ _ _, .ok (some job) => some job
  | _, _, .processJob _ _, _ => none
  | _, job, _, _ => job

def jobOf (thread : PassThread) : Option Job :=
  thread.past.foldl (fun job event => inProcess job event.command event.answer) none

def runningJobs (pool : RunnerPool) : List Job := pool.threads.filterMap jobOf

def tookOf (thread : PassThread) : List Reservation := collected takenBy thread.past

def gaveOf (thread : PassThread) : List Reservation := collected givenBy thread.past

/-- What the thread has taken it has given back, but for these. -/
def Holds (thread : PassThread) (rest : List Reservation) : Prop :=
  (tookOf thread).Perm (gaveOf thread ++ rest)

def isOfClass (class_ : JobClass) (job : Job) : Bool :=
  decide ((JobType.parse job.jobType).map jobClass = some class_)

/-- A pass waits for a free slot, and everything else happens in any order. -/
def Free : Guard PoolCmd Runner String Unit := fun runner _ thread _ =>
  match thread.prog with
  | .call command _ => ready command runner
  | _ => True

instance {β : Type} : (command : PoolCmd β) → (runner : Runner) → Decidable (ready command runner)
  | .acquire, runner => inferInstanceAs (Decidable (0 < runner.permits))
  | .peekPendingJobs _ _ _, _ => .isTrue trivial
  | .reserveClass _ _, _ => .isTrue trivial
  | .dropClassPermit _, _ => .isTrue trivial
  | .reserveKey _, _ => .isTrue trivial
  | .removeKey _, _ => .isTrue trivial
  | .tryClaimPendingJob _ _ _, _ => .isTrue trivial
  | .processJob _ _, _ => .isTrue trivial
  | .dropPermit, _ => .isTrue trivial

instance (runner : Runner) (before : List PassThread) : (thread : PassThread) →
    (after : List PassThread) → Decidable (Free runner before thread after)
  | ⟨.call command _, _⟩, _ => inferInstanceAs (Decidable (ready command runner))
  | ⟨.ret _, _⟩, _ => .isTrue trivial
  | ⟨.fail _, _⟩, _ => .isTrue trivial

section Runs

variable {N : Type} (fromStr : String → Option (Json N)) (poolSize : Nat)
  (label : String → String × String)

def needs (job : Job) : List Reservation :=
  .slot :: (((JobType.parse job.jobType).bind (permitFor poolSize)).toList.map .permit ++
    (conflictKeyFor fromStr job).toList.map .key)

/-- Other statements on the tables, of the jobs themselves and of everybody else. -/
def Elsewhere (runner runner' : Runner) : Prop :=
  ∃ t, Labelled label t ∧ runner' = { runner with tables := t }

def startPool (t : Tables) (fortunes : List Fortune) : RunnerPool :=
  .start ⟨t, poolSize, ∅, fun _ => 0⟩ (fortunes.map (pass fromStr poolSize))

structure Kept (pool : RunnerPool) : Prop where
  slots : (runningJobs pool).length ≤ poolSize
  capped : ∀ class_ cap, classCap class_ poolSize = some cap →
    ((runningJobs pool).filter (isOfClass class_)).length ≤ cap
  roomLeft : 2 ≤ poolSize → ((runningJobs pool).filter (isOfClass .heavy)).length < poolSize
  apart : ((runningJobs pool).filterMap (conflictKeyFor fromStr)).Nodup
  counted : ∀ r, taken poolSize pool.state r +
      (pool.threads.map fun thread => (gaveOf thread).count r).sum =
    (pool.threads.map fun thread => (tookOf thread).count r).sum
  once : ∀ thread ∈ pool.threads, ∀ r, (gaveOf thread).count r ≤ (tookOf thread).count r ∧
    (tookOf thread).count r ≤ (gaveOf thread).count r + 1
  searching : ∀ thread ∈ pool.threads, ∀ class_ cap next,
    thread.prog = .call (.reserveClass class_ cap) next → Holds thread [.slot]
  keying : ∀ thread ∈ pool.threads, ∀ key next, thread.prog = .call (.reserveKey key) next →
    Holds thread (.slot :: (permitFor poolSize key.1).toList.map .permit)
  claiming : ∀ thread ∈ pool.threads, ∀ id now fault next,
    thread.prog = .call (.tryClaimPendingJob id now fault) next →
      ∃ candidate, candidate.id = id ∧ Holds thread (needs fromStr poolSize candidate)
  processing : ∀ thread ∈ pool.threads, ∀ job, jobOf thread = some job →
    Holds thread (needs fromStr poolSize job)
  back : ∀ thread ∈ pool.threads, thread.status ≠ .running → Holds thread []

variable {fromStr poolSize label}

theorem stage_job (past : List (Event PoolCmd)) :
    ((reservations fromStr poolSize).stage past).job =
      past.foldl (fun job event => inProcess job event.command event.answer) none := by
  induction past using List.reverseRecOn with
  | nil => rfl
  | append_singleton past event ih =>
    rw [Protocol.stage_snoc, List.foldl_append, ← ih]
    obtain ⟨command, answer⟩ := event
    change (Holding.next _ fromStr command answer).job = inProcess _ command answer
    cases command with
    | peekPendingJobs limit now fault => cases answer <;> rfl
    | reserveClass class_ cap => cases answer <;> rfl
    | reserveKey key => cases answer <;> rfl
    | tryClaimPendingJob id now fault =>
      match answer with
      | .error message => rfl
      | .ok none => rfl
      | .ok (some job) => rfl
    | _ => rfl

theorem stage_took (past : List (Event PoolCmd)) :
    ((reservations fromStr poolSize).stage past).took = collected takenBy past := by
  induction past using List.reverseRecOn with
  | nil => rfl
  | append_singleton past event ih =>
    rw [Protocol.stage_snoc, collected_snoc, ← ih]
    rfl

theorem stage_gave (past : List (Event PoolCmd)) :
    ((reservations fromStr poolSize).stage past).gave = collected givenBy past := by
  induction past using List.reverseRecOn with
  | nil => rfl
  | append_singleton past event ih =>
    rw [Protocol.stage_snoc, collected_snoc, ← ih]
    rfl

variable {holding : Holding}

theorem Holding.held_of_at {permit : Option JobClass}
    {key : Option ConflictKey} {job : Option Job} (here : holding.At true permit key job) :
    holding.held = .slot :: (permit.toList.map .permit ++ key.toList.map .key) := by
  rw [Holding.held, here.slot, here.permit, here.key]
  rfl

theorem held_of_fits {job : Job} (slot : holding.slot = true)
    (fits : holding.Fits fromStr poolSize job) : holding.held = needs fromStr poolSize job := by
  obtain ⟨jobType, parsed, permit, key⟩ := fits
  rw [Holding.held_of_at ⟨slot, permit, key, rfl⟩, needs, parsed]
  rfl

theorem accounts_of_run {t : Tables} (labelled : Labelled label t) {fortunes : List Fortune}
    {pool : RunnerPool} (run : Pool.Run (Elsewhere label) Free
      (startPool fromStr poolSize t fortunes) pool) :
    (∀ thread ∈ pool.threads, thread.Obeys (reservations fromStr poolSize)) ∧
      Accounts fromStr poolSize label pool.state
        ((pool.threads.map (Thread.view (reservations fromStr poolSize))).map Prod.fst) := by
  refine Pool.Run.keeps (reservations fromStr poolSize)
    (fun runner views => Accounts fromStr poolSize label runner (views.map Prod.fst))
    (fun {s s' views} change accounts => ?_)
    (fun {s before after thread β command next status} called free legal _ accounts => ?_)
    (fun thread member => ?_) ?_ run
  · obtain ⟨t', labelled', rfl⟩ := change
    exact ⟨labelled', accounts.balanced, accounts.capped, accounts.sound⟩
  · have enabled : ready command s := by
      rw [Free, called] at free
      exact free
    have first : Accounts fromStr poolSize label s
        ((reservations fromStr poolSize).stage thread.past :: (before ++ after).map fun thread =>
          (reservations fromStr poolSize).stage thread.past) := by
      refine accounts.perm ?_
      simp only [List.map_append, List.map_cons, List.map_map]
      exact List.perm_middle
    refine (first.step legal enabled).perm ?_
    simp only [List.map_append, List.map_cons, List.map_map]
    exact List.perm_middle.symm
  · obtain ⟨prog, begun, rfl⟩ := List.mem_map.mp member
    obtain ⟨fortune, -, rfl⟩ := List.mem_map.mp begun
    exact pass_follows
  · have fresh : ((startPool fromStr poolSize t fortunes).threads.map
        (Thread.view (reservations fromStr poolSize))).map Prod.fst =
          fortunes.map fun _ => (reservations fromStr poolSize).start := by
      simp only [startPool, Pool.start, List.map_map]
      rfl
    rw [fresh]
    refine ⟨labelled, fun r => ?_, fun _ _ _ => Nat.zero_le _, fun holding member => ?_⟩
    · have nothing : (fortunes.map fun _ => (reservations fromStr poolSize).start).flatMap
          Holding.held = [] := by
        simp only [List.flatMap_map, List.flatMap_eq_nil_iff]
        exact fun _ _ => rfl
      rw [nothing]
      cases r <;> simp [startPool, Pool.start, taken, timesBusy]
    · obtain ⟨fortune, -, rfl⟩ := List.mem_map.mp member
      exact ⟨.refl _, fun _ read => (nomatch read), fun _ job => (nomatch job)⟩

theorem isOfClass_permit {job : Job} {class_ : JobClass} {cap : Nat}
    (fits : holding.Fits fromStr poolSize job) (ofClass : isOfClass class_ job = true)
    (limit : classCap class_ poolSize = some cap) : holding.permit = some class_ := by
  obtain ⟨jobType, parsed, permit, -⟩ := fits
  have same : (JobType.parse job.jobType).map jobClass = some class_ := of_decide_eq_true ofClass
  rw [parsed] at same
  have class' : jobClass jobType = class_ := Option.some.inj same
  rw [permit, permitFor, class', limit]
  rfl

/-- Every interleaving of passes and workers keeps the pool's promise. -/
theorem kept_of_run (label : String → String × String) (t : Tables) (labelled : Labelled label t)
    (fortunes : List Fortune) (pool : RunnerPool) (run : Pool.Run (Elsewhere label) Free
      (startPool fromStr poolSize t fortunes) pool) : Kept fromStr poolSize pool := by
  obtain ⟨obeys, accounts⟩ := accounts_of_run labelled run
  let stage (thread : PassThread) := (reservations fromStr poolSize).stage thread.past
  have views : (pool.threads.map (Thread.view (reservations fromStr poolSize))).map Prod.fst =
      pool.threads.map stage := by
    rw [List.map_map]
    rfl
  rw [views] at accounts
  have running : runningJobs pool = (pool.threads.map stage).filterMap Holding.job := by
    rw [runningJobs, List.filterMap_map]
    exact List.filterMap_congr fun thread _ => (stage_job thread.past).symm
  have sound (thread : PassThread) (member : thread ∈ pool.threads) :
      Sound fromStr poolSize label (stage thread) :=
    accounts.sound _ (List.mem_map_of_mem member)
  have holds (thread : PassThread) (member : thread ∈ pool.threads) :
      Holds thread (stage thread).held := by
    have ledger := (sound thread member).ledger
    rwa [stage_took, stage_gave] at ledger
  have counts (thread : PassThread) (member : thread ∈ pool.threads) (r : Reservation) :
      (tookOf thread).count r = (gaveOf thread).count r + ((stage thread).held).count r := by
    rw [(holds thread member).count_eq r, List.count_append]
  have fits (holding : Holding) (member : holding ∈ pool.threads.map stage) (job : Job)
      (own : holding.job = some job) :=
    (accounts.sound holding member).running job own
  have slots := accounts.balanced.users_le (p := fun _ => true) (r := .slot)
    fun holding member job own _ => by
      rw [Holding.held, (fits holding member job own).1]
      exact List.mem_cons_self
  have capped (class_ : JobClass) (cap : Nat) (limit : classCap class_ poolSize = some cap) :
      ((runningJobs pool).filter (isOfClass class_)).length ≤ cap := by
    rw [running]
    have users := accounts.balanced.users_le (p := isOfClass class_) (r := .permit class_)
      fun holding member job own ofClass => by
        have permit := isOfClass_permit (fits holding member job own).2 ofClass limit
        rw [← List.count_pos_iff, Holding.count_held]
        exact Nat.lt_of_lt_of_eq Nat.one_pos (if_pos permit).symm
    exact Nat.le_trans (Int.ofNat_le.mp users) (accounts.capped class_ cap limit)
  refine ⟨?_, capped, fun two => ?_, ?_, fun r => ?_, fun thread member r => ?_,
    fun thread member class_ cap next called => ?_, fun thread member key next called => ?_,
    fun thread member id now fault next called => ?_, fun thread member job own => ?_,
    fun thread member ended => ?_⟩
  · have all : ((runningJobs pool).filter fun _ => true).length = (runningJobs pool).length := by
      rw [List.filter_true]
    have free : taken poolSize pool.state .slot ≤ poolSize := Int.sub_le_self _ (Int.natCast_nonneg _)
    rw [← all, running]
    exact Int.ofNat_le.mp (Int.le_trans slots free)
  · have heavy := capped .heavy _ rfl
    rw [heavyJobReservedSlots] at heavy
    omega
  · refine List.nodup_iff_count_le_one.mpr fun key => ?_
    have users := accounts.balanced.users_le (p := fun job => conflictKeyFor fromStr job = some key)
      (r := .key key) fun holding member job own ofKey => by
        obtain ⟨-, -, -, -, reserved⟩ := fits holding member job own
        have names := reserved.trans (of_decide_eq_true ofKey)
        rw [← List.count_pos_iff, Holding.count_held]
        exact Nat.lt_of_lt_of_eq Nat.one_pos (if_pos names).symm
    have once : taken poolSize pool.state (.key key) ≤ 1 := by
      change timesBusy _ _ ≤ 1
      unfold timesBusy
      split <;> omega
    have same : ((runningJobs pool).filterMap (conflictKeyFor fromStr)).count key =
        ((runningJobs pool).filter fun job => conflictKeyFor fromStr job = some key).length := by
      rw [List.count_filterMap, List.countP_eq_length_filter]
      refine congrArg List.length (List.filter_congr fun job _ => ?_)
      exact beq_eq_decide _ _
    rw [same, running]
    exact Int.ofNat_le.mp (Int.le_trans users once)
  · exact accounts.balanced.counted fun thread member => counts thread member r
  · have most : ((stage thread).held).count r ≤ 1 := by
      rw [Holding.count_held]
      cases r <;> (dsimp only; split <;> omega)
    have own := counts thread member r
    omega
  · have own := obeys thread member
    rw [Thread.Obeys, called] at own
    have held := holds thread member
    rwa [Holding.held_of_at own.1.1] at held
  · have own := obeys thread member
    rw [Thread.Obeys, called] at own
    have held := holds thread member
    rwa [Holding.held_of_at own.1, Option.toList_none, List.map_nil, List.append_nil] at held
  · have own := obeys thread member
    rw [Thread.Obeys, called] at own
    obtain ⟨slot, -, candidate, -, same, ready⟩ := own.1
    exact ⟨candidate, same, held_of_fits slot ready ▸ holds thread member⟩
  · have hand : (stage thread).job = some job := (stage_job thread.past).trans own
    obtain ⟨slot, ready⟩ := (sound thread member).running job hand
    exact held_of_fits slot ready ▸ holds thread member
  · have here : (stage thread).At false none none none := (obeys thread member).ended ended
    have nothing : (stage thread).held = [] := by
      rw [Holding.held, here.slot, here.permit, here.key]
      rfl
    exact nothing ▸ holds thread member

end Runs

/-! A fetch in a pool of one worker. -/

def fetch : Job where
  id := "j"
  sessionId := none
  jobType := "FetchMedia"
  status := .pending
  parameters := "\x7b\x7d"
  result := none
  retryCount := 0
  maxRetries := 3
  scheduledAt := 0
  startedAt := none
  completedAt := none
  errorMessage := none
  createdBy := none
  priority := 0
  attempt := 1

def fetchTables : Tables where
  jobz := ⟨[fetch], List.nodup_singleton _⟩
  jobSessionz := ∅
  references job member sessionId names := by
    rw [List.mem_singleton.mp member] at names
    cases names

def badFortune : Fortune := ⟨0, none, fun _ => none, fun _ => .panicked⟩

def noJson : String → Option (Json Unit) := fun _ => none

def peeked : RunnerPool where
  state := ⟨fetchTables, 0, ∅, fun _ => 0⟩
  threads := [⟨do
      match ← (claimFirst noJson 1 badFortune [fetch]).result with
      | .error _ => Prog.issue .dropPermit
      | .ok none => Prog.issue .dropPermit
      | .ok (some (job, classPermit)) => worker noJson badFortune job classPermit,
    [⟨.acquire, ()⟩, ⟨.peekPendingJobs 8 0 none, .ok [fetch]⟩]⟩]

theorem peeked_of_start (env : Runner → Runner → Prop) :
    Pool.Run env Free (startPool noJson 1 fetchTables [badFortune]) peeked := by
  have due : fetchTables.due 0 = [fetch] := by
    have pending : fetchTables.jobz.rows.filter (fun job =>
        job.status = .pending && job.scheduledAt ≤ 0) = [fetch] := by decide
    rw [Tables.due, pending, List.mergeSort_singleton]
  have first : Pool.Run env Free (startPool noJson 1 fetchTables [badFortune])
      ((startPool noJson 1 fetchTables [badFortune]).schedule [0]) :=
    Pool.run_of_admitted (by decide)
  have read : Machine.exec (PoolCmd.peekPendingJobs (peekLimit 1) 0 none) peeked.state =
      (.ok [fetch], peeked.state) := by
    change (Except.ok ((fetchTables.due 0).take 8), peeked.state) = _
    rw [due]
    rfl
  have step := @Pool.Step.thread _ _ _ _ _ env Free peeked.state [] [] [⟨.acquire, ()⟩] _
    (.peekPendingJobs (peekLimit 1) 0 none) (fun answer => do
      match ← ((Prog.ofExcept answer).bind (claimFirst noJson 1 badFortune)).result with
      | .error _ => Prog.issue .dropPermit
      | .ok none => Prog.issue .dropPermit
      | .ok (some (job, classPermit)) => worker noJson badFortune job classPermit) trivial
  rw [read] at step
  exact first.tail step

theorem panicked_fetch_kept :
    runningJobs (peeked.schedule [0, 0]) = [Tables.claimed 0 fetch] ∧
      runningJobs (peeked.schedule [0, 0, 0, 0, 0]) = [] ∧
      Kept noJson 1 (peeked.schedule [0, 0, 0, 0, 0]) := by
  refine ⟨by decide, by decide, kept_of_run (fun _ => ("FetchMedia", "\x7b\x7d")) fetchTables
    (fun job member => ?_) [badFortune] _
    ((peeked_of_start _).trans (Pool.run_of_admitted (by decide)))⟩
  rw [List.mem_singleton.mp member]
  rfl

end Tomb.Grimoire.Jobs.WorkerPool
