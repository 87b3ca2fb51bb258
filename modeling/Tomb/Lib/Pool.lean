import Mathlib.Algebra.Order.Group.Nat
import Mathlib.Algebra.Ring.Nat
import Mathlib.Data.List.Count
import Mathlib.Data.List.Perm.Basic
import Mathlib.Logic.Relation
import Tomb.Lib.Prog

/-! Pools of concurrent programs over one store. Each step runs the next command of one thread,
or lets the environment change the store. A protocol watches the commands and answers of a thread
and assigns it a stage; an invariant over the store and the stages then holds of whole runs once
every single command keeps it. -/
namespace Tomb.Lib

structure Event (Cmd : Type → Type) : Type 1 where
  {answers : Type}
  command : Cmd answers
  answer : answers

structure Thread (Cmd : Type → Type) (ε α : Type) : Type 1 where
  prog : Prog Cmd ε α
  past : List (Event Cmd)

structure Pool (Cmd : Type → Type) (σ ε α : Type) : Type 1 where
  state : σ
  threads : List (Thread Cmd ε α)

inductive Status where
  | running
  | returned
  | failed
  deriving DecidableEq

def statusOf {ε α : Type} : Except ε α → Status
  | .ok _ => .returned
  | .error _ => .failed

variable {Cmd : Type → Type} {σ ε α β κ : Type}

def Prog.status : Prog Cmd ε α → Status
  | .ret _ => .returned
  | .fail _ => .failed
  | .call _ _ => .running

namespace Thread

def start (prog : Prog Cmd ε α) : Thread Cmd ε α := ⟨prog, []⟩

def status (thread : Thread Cmd ε α) : Status := thread.prog.status

end Thread

def Pool.start (state : σ) (progs : List (Prog Cmd ε α)) : Pool Cmd σ ε α :=
  ⟨state, progs.map Thread.start⟩

/-- When a thread may take its next step, given the store and the other threads. -/
abbrev Guard (Cmd : Type → Type) (σ ε α : Type) :=
  σ → List (Thread Cmd ε α) → Thread Cmd ε α → List (Thread Cmd ε α) → Prop

def Guard.any : Guard Cmd σ ε α := fun _ _ _ _ => True

section Runs

variable [Machine Cmd σ]

inductive Pool.Step (env : σ → σ → Prop) (guard : Guard Cmd σ ε α) :
    Pool Cmd σ ε α → Pool Cmd σ ε α → Prop where
  | thread {s : σ} {before after : List (Thread Cmd ε α)} {past : List (Event Cmd)} {β : Type}
      {command : Cmd β} {next : β → Prog Cmd ε α}
      (allowed : guard s before ⟨.call command next, past⟩ after) :
      Pool.Step env guard ⟨s, before ++ ⟨.call command next, past⟩ :: after⟩
        ⟨(Machine.exec command s).2, before ++ ⟨next (Machine.exec command s).1,
          past ++ [⟨command, (Machine.exec command s).1⟩]⟩ :: after⟩
  | env {s s' : σ} {threads : List (Thread Cmd ε α)} (change : env s s') :
      Pool.Step env guard ⟨s, threads⟩ ⟨s', threads⟩

def Pool.Run (env : σ → σ → Prop) (guard : Guard Cmd σ ε α) :
    Pool Cmd σ ε α → Pool Cmd σ ε α → Prop :=
  Relation.ReflTransGen (Pool.Step env guard)

end Runs

/-- A deterministic observer of a thread's commands and answers, with the commands that are legal
in each stage and the ways in which a thread may end there. -/
structure Protocol (Cmd : Type → Type) (κ : Type) where
  start : κ
  next : κ → {β : Type} → Cmd β → β → κ
  legal : κ → {β : Type} → Cmd β → Prop
  final : κ → Status → Prop

namespace Protocol

variable (P : Protocol Cmd κ)

def stage (past : List (Event Cmd)) : κ :=
  past.foldl (fun stage event => P.next stage event.command event.answer) P.start

theorem stage_snoc (past : List (Event Cmd)) (event : Event Cmd) :
    P.stage (past ++ [event]) = P.next (P.stage past) event.command event.answer := by
  simp only [stage, List.foldl_append, List.foldl_cons, List.foldl_nil]

/-- From `stage` on, the program issues legal commands only and ends as `post` allows, whatever
the answers are. -/
def Follows : Prog Cmd ε α → κ → (κ → Except ε α → Prop) → Prop
  | .ret value, stage, post => post stage (.ok value)
  | .fail error, stage, post => post stage (.error error)
  | .call command next, stage, post =>
    P.legal stage command ∧ ∀ answer, Follows (next answer) (P.next stage command answer) post

variable {P}

@[simp] theorem follows_ret (value : α) (stage : κ) (post : κ → Except ε α → Prop) :
    P.Follows (.ret value : Prog Cmd ε α) stage post ↔ post stage (.ok value) := Iff.rfl

@[simp] theorem follows_fail (error : ε) (stage : κ) (post : κ → Except ε α → Prop) :
    P.Follows (.fail error : Prog Cmd ε α) stage post ↔ post stage (.error error) := Iff.rfl

variable {stage : κ} {post : κ → Except ε α → Prop}

@[simp] theorem follows_issue {command : Cmd α} : P.Follows (Prog.issue command) stage post ↔
      P.legal stage command ∧ ∀ answer, post (P.next stage command answer) (.ok answer) := Iff.rfl

@[simp] theorem follows_attempt {command : Cmd (Except ε α)} :
    P.Follows (Prog.attempt command) stage post ↔
      P.legal stage command ∧ ∀ answer, post (P.next stage command answer) answer := by
  refine and_congr_right fun _ => forall_congr' fun answer => ?_
  cases answer <;> rfl

@[simp] theorem follows_ofOption {error : ε} {value : Option α} :
    P.Follows (Prog.ofOption error value) stage post ↔
      (∀ found, value = some found → post stage (.ok found)) ∧
        (value = none → post stage (.error error)) := by
  cases value <;> simp [Prog.ofOption]

@[simp] theorem follows_ofExcept {value : Except ε α} :
    P.Follows (Prog.ofExcept value) stage post ↔ post stage value := by
  cases value <;> rfl

@[simp] theorem follows_require {condition : Bool} {error : ε} {post : κ → Except ε Unit → Prop} :
    P.Follows (Prog.require condition error) stage post ↔
      (condition = true → post stage (.ok ())) ∧
        (condition = false → post stage (.error error)) := by
  cases condition <;> simp [Prog.require]

@[simp] theorem follows_ite (c : Prop) [Decidable c] {p q : Prog Cmd ε α} :
    P.Follows (if c then p else q) stage post ↔
      (c → P.Follows p stage post) ∧ (¬c → P.Follows q stage post) := by
  split <;> simp [*]

@[simp] theorem follows_bind {p : Prog Cmd ε α} {f : α → Prog Cmd ε β}
    {post : κ → Except ε β → Prop} :
    P.Follows (p >>= f) stage post ↔ P.Follows p stage fun later result => match result with
      | .ok value => P.Follows (f value) later post
      | .error error => post later (.error error) := by
  induction p generalizing stage with
  | ret value => rfl
  | fail error => rfl
  | call command next ih => exact and_congr_right fun _ => forall_congr' fun answer => ih answer

@[simp] theorem follows_result {ε' : Type} {p : Prog Cmd ε α}
    {post : κ → Except ε' (Except ε α) → Prop} : P.Follows p.result stage post ↔
      P.Follows p stage fun later result => post later (.ok result) := by
  induction p generalizing stage with
  | ret value => rfl
  | fail error => rfl
  | call command next ih => exact and_congr_right fun _ => forall_congr' fun answer => ih answer

theorem Follows.imp {p : Prog Cmd ε α} {post' : κ → Except ε α → Prop}
    (follows : P.Follows p stage post) (weaker : ∀ later result, post later result →
      post' later result) : P.Follows p stage post' := by
  induction p generalizing stage with
  | ret value => exact weaker _ _ follows
  | fail error => exact weaker _ _ follows
  | call command next ih => exact ⟨follows.1, fun answer => ih answer (follows.2 answer)⟩

theorem follows_of_kept {allowed : {β : Type} → Cmd β → Prop} {p : Prog Cmd ε α}
    {kept : κ → Prop} (inner : p.Within allowed)
    (keeps : ∀ {β : Type} (stage : κ) (command : Cmd β), kept stage → allowed command →
      P.legal stage command ∧ ∀ answer, kept (P.next stage command answer)) (start : kept stage) :
    P.Follows p stage fun later _ => kept later := by
  induction p generalizing stage with
  | ret value => exact start
  | fail error => exact start
  | call command next ih =>
    obtain ⟨legal, later⟩ := keeps stage command start inner.1
    exact ⟨legal, fun answer => ih answer (inner.2 answer) (later answer)⟩

theorem follows_of_legal {p : Prog Cmd ε α}
    (legal : p.Within fun command => ∀ stage, P.legal stage command)
    (ends : ∀ stage result, post stage result) : P.Follows p stage post := by
  induction p generalizing stage with
  | ret value => exact ends _ _
  | fail error => exact ends _ _
  | call command next ih => exact ⟨legal.1 _, fun answer => ih answer (legal.2 answer)⟩

end Protocol

@[grind =] def Thread.view (P : Protocol Cmd κ) (thread : Thread Cmd ε α) : κ × Status :=
  (P.stage thread.past, thread.status)

/-- The stages of a pool: that of one thread, and those of the others. -/
theorem mem_stages (P : Protocol Cmd κ) (before after : List (Thread Cmd ε α)) (stage : κ)
    (status : Status) (other : κ) :
    other ∈ (before.map (Thread.view P) ++ (stage, status) :: after.map (Thread.view P)).map
        Prod.fst ↔
      other ∈ stage :: (before ++ after).map fun thread => P.stage thread.past := by
  simp [Thread.view, or_left_comm]

/-- A thread that keeps to the protocol for the rest of its run. -/
def Thread.Obeys (P : Protocol Cmd κ) (thread : Thread Cmd ε α) : Prop :=
  P.Follows thread.prog (P.stage thread.past) fun later result => P.final later (statusOf result)

theorem Thread.Obeys.ended {P : Protocol Cmd κ} {thread : Thread Cmd ε α}
    (obeys : thread.Obeys P) (ended : thread.status ≠ .running) :
    P.final (P.stage thread.past) thread.status := by
  obtain ⟨prog, past⟩ := thread
  cases prog with
  | ret value => exact obeys
  | fail error => exact obeys
  | call command next => exact absurd rfl ended

section Runs

variable [Machine Cmd σ]

/-- The invariant rule: from obedient threads and an invariant that every legal command and every
change by the environment keeps, the whole run keeps both. -/
theorem Pool.Run.keeps (P : Protocol Cmd κ) {env : σ → σ → Prop} {guard : Guard Cmd σ ε α}
    (inv : σ → List (κ × Status) → Prop)
    (envKeeps : ∀ {s s' : σ} {views : List (κ × Status)}, env s s' → inv s views → inv s' views)
    (stepKeeps : ∀ {s : σ} {before after : List (Thread Cmd ε α)} {thread : Thread Cmd ε α}
      {β : Type} {command : Cmd β} {next : β → Prog Cmd ε α} {status : Status},
      thread.prog = .call command next → guard s before thread after →
      P.legal (P.stage thread.past) command →
      (status ≠ .running →
        P.final (P.next (P.stage thread.past) command (Machine.exec command s).1) status) →
      inv s (before.map (Thread.view P) ++ (P.stage thread.past, .running) ::
        after.map (Thread.view P)) →
      inv (Machine.exec command s).2 (before.map (Thread.view P) ++
        (P.next (P.stage thread.past) command (Machine.exec command s).1, status) ::
          after.map (Thread.view P)))
    {first last : Pool Cmd σ ε α} (obeys : ∀ thread ∈ first.threads, thread.Obeys P)
    (start : inv first.state (first.threads.map (Thread.view P)))
    (run : Pool.Run env guard first last) :
    (∀ thread ∈ last.threads, thread.Obeys P) ∧
      inv last.state (last.threads.map (Thread.view P)) := by
  induction run with
  | refl => exact ⟨obeys, start⟩
  | tail _ step ih =>
    obtain ⟨obeys, holds⟩ := ih
    cases step with
    | env change => exact ⟨obeys, envKeeps change holds⟩
    | @thread s before after past β command next allowed =>
      have own := obeys ⟨.call command next, past⟩ (by simp)
      have moved : Thread.Obeys P ⟨next (Machine.exec command s).1,
          past ++ [⟨command, (Machine.exec command s).1⟩]⟩ := by
        unfold Thread.Obeys
        rw [P.stage_snoc]
        exact own.2 _
      refine ⟨fun thread member => ?_, ?_⟩
      · rcases List.mem_append.mp member with member | member
        · exact obeys thread (List.mem_append_left _ member)
        · rcases List.mem_cons.mp member with rfl | member
          · exact moved
          · exact obeys thread (List.mem_append_right _ (List.mem_cons_of_mem _ member))
      · have ended := moved.ended
        simp only [List.map_append, List.map_cons, Thread.view, Thread.status, P.stage_snoc]
          at holds ended ⊢
        have called : Thread.prog (⟨.call command next, past⟩ : Thread Cmd ε α) =
            .call command next := rfl
        exact stepKeeps called allowed own.1 ended holds

variable {env : σ → σ → Prop} {guard : Guard Cmd σ ε α}

/-- What every command and every change by the environment keeps, the run keeps. -/
theorem Pool.Run.state_keeps {inv : σ → Prop} (envKeeps : ∀ {s s' : σ}, env s s' → inv s → inv s')
    (keeps : ∀ {β : Type} (command : Cmd β) (s : σ), inv s → inv (Machine.exec command s).2)
    {first last : Pool Cmd σ ε α} (start : inv first.state) (run : Pool.Run env guard first last) :
    inv last.state := by
  induction run with
  | refl => exact start
  | tail _ step ih =>
    cases step with
    | env change => exact envKeeps change ih
    | thread allowed => exact keeps _ _ ih

def stepThread : Nat → List (Thread Cmd ε α) → σ → σ × List (Thread Cmd ε α)
  | _, [], s => (s, [])
  | 0, ⟨.call command next, past⟩ :: rest, s =>
    ((Machine.exec command s).2, ⟨next (Machine.exec command s).1,
      past ++ [⟨command, (Machine.exec command s).1⟩]⟩ :: rest)
  | 0, thread :: rest, s => (s, thread :: rest)
  | i + 1, thread :: rest, s =>
    ((stepThread i rest s).1, thread :: (stepThread i rest s).2)

/-- The pool after a schedule: the list of the positions that step, one after another. -/
def Pool.schedule (pool : Pool Cmd σ ε α) : List Nat → Pool Cmd σ ε α
  | [] => pool
  | i :: rest =>
    Pool.schedule ⟨(stepThread i pool.threads pool.state).1,
      (stepThread i pool.threads pool.state).2⟩ rest

def Guard.admits (guard : Guard Cmd σ ε α) (s : σ) (before : List (Thread Cmd ε α)) :
    Nat → List (Thread Cmd ε α) → Prop
  | _, [] => True
  | 0, thread :: rest => guard s before thread rest
  | i + 1, thread :: rest => guard.admits s (before ++ [thread]) i rest

def Pool.Admitted (guard : Guard Cmd σ ε α) (pool : Pool Cmd σ ε α) : List Nat → Prop
  | [] => True
  | i :: rest => guard.admits pool.state [] i pool.threads ∧
    Pool.Admitted guard ⟨(stepThread i pool.threads pool.state).1,
      (stepThread i pool.threads pool.state).2⟩ rest

instance Guard.decidableAdmits (guard : Guard Cmd σ ε α)
    [∀ s before thread after, Decidable (guard s before thread after)] (s : σ) :
    (before : List (Thread Cmd ε α)) → (i : Nat) → (after : List (Thread Cmd ε α)) →
      Decidable (guard.admits s before i after)
  | _, i, [] => .isTrue (by cases i <;> trivial)
  | before, 0, thread :: rest => inferInstanceAs (Decidable (guard s before thread rest))
  | before, i + 1, thread :: rest => decidableAdmits guard s (before ++ [thread]) i rest

instance Pool.decidableAdmitted (guard : Guard Cmd σ ε α)
    [∀ s before thread after, Decidable (guard s before thread after)] :
    (pool : Pool Cmd σ ε α) → (steps : List Nat) → Decidable (pool.Admitted guard steps)
  | _, [] => .isTrue trivial
  | pool, i :: rest =>
    have := decidableAdmitted guard ⟨(stepThread i pool.threads pool.state).1,
      (stepThread i pool.threads pool.state).2⟩ rest
    inferInstanceAs (Decidable (_ ∧ Pool.Admitted guard _ rest))

theorem Pool.run_stepThread (i : Nat)
    (before after : List (Thread Cmd ε α)) (s : σ) (admits : guard.admits s before i after) :
    Pool.Run env guard ⟨s, before ++ after⟩
      ⟨(stepThread i after s).1, before ++ (stepThread i after s).2⟩ := by
  induction after generalizing i before with
  | nil =>
    cases i <;> exact .refl
  | cons thread rest ih =>
    cases i with
    | succ i =>
      have later := ih i (before ++ [thread]) admits
      simpa [stepThread] using later
    | zero =>
      obtain ⟨prog, past⟩ := thread
      cases prog with
      | ret value => exact .refl
      | fail error => exact .refl
      | call command next => exact .single (.thread admits)

theorem Pool.run_of_admitted
    {pool : Pool Cmd σ ε α} {steps : List Nat} (admitted : pool.Admitted guard steps) :
    Pool.Run env guard pool (pool.schedule steps) := by
  induction steps generalizing pool with
  | nil => exact .refl
  | cons i rest ih =>
    exact (Pool.run_stepThread i [] pool.threads pool.state admitted.1).trans (ih admitted.2)

omit [Machine Cmd σ] in
theorem Guard.any_admits (s : σ) (before : List (Thread Cmd ε α)) (i : Nat)
    (after : List (Thread Cmd ε α)) : Guard.any.admits s before i after := by
  induction after generalizing i before with
  | nil => cases i <;> trivial
  | cons thread rest ih =>
    cases i with
    | zero => trivial
    | succ i => exact ih _ i

theorem Pool.run_schedule (pool : Pool Cmd σ ε α) (steps : List Nat) :
    Pool.Run env Guard.any pool (pool.schedule steps) := by
  induction steps generalizing pool with
  | nil => exact .refl
  | cons i rest ih =>
    exact (Pool.run_stepThread i [] pool.threads pool.state
      (Guard.any_admits _ _ _ _)).trans (ih _)

end Runs

end Tomb.Lib

/-! Resources that concurrent threads take and give back. The store counts what is taken of each
resource; it is in balance when that is what the stages of the threads hold. -/
namespace Tomb.Lib

variable {Cmd : Type → Type} {κ R U : Type}

section Ledger

/-- The resources that a selection of the events of a thread name, one after another. -/
def collected (names : {β : Type} → Cmd β → β → Option R) (past : List (Event Cmd)) : List R :=
  past.filterMap fun event => names event.command event.answer

theorem collected_snoc (names : {β : Type} → Cmd β → β → Option R) (past : List (Event Cmd))
    (event : Event Cmd) : collected names (past ++ [event]) =
      collected names past ++ (names event.command event.answer).toList := by
  rw [collected, List.filterMap_append, collected]
  cases named : names event.command event.answer with
  | none => simp [named]
  | some r => simp [named]

end Ledger

section Balance

variable [DecidableEq R]

/-- What is taken of each resource is what the stages hold of it. -/
def Balanced (held : κ → List R) (taken : R → Int) (stages : List κ) : Prop :=
  ∀ r, taken r = (stages.flatMap held).count r

variable {held : κ → List R} {taken taken' : R → Int} {stages stages' : List κ}

theorem Balanced.perm (balanced : Balanced held taken stages) (same : stages.Perm stages') :
    Balanced held taken stages' := fun r => by
  rw [balanced r, (same.flatMap_right held).count_eq r]

/-- A step keeps the balance when it changes what is taken as it changes what its thread holds. -/
theorem Balanced.step {stage stage' : κ} (balanced : Balanced held taken (stage :: stages))
    (moves : ∀ r, taken' r + (held stage).count r = taken r + (held stage').count r) :
    Balanced held taken' (stage' :: stages) := fun r => by
  have before := balanced r
  have moved := moves r
  rw [List.flatMap_cons, List.count_append] at before ⊢
  push_cast at before ⊢
  omega

/-- What is taken is what the threads took and have not given back. -/
theorem Balanced.counted {ι : Type*} {threads : List ι} {stage : ι → κ} {took gave : ι → Nat} {r : R}
    (balanced : Balanced held taken (threads.map stage))
    (ledger : ∀ thread ∈ threads, took thread = gave thread + (held (stage thread)).count r) :
    taken r + (threads.map gave).sum = (threads.map took).sum := by
  have all : ((threads.map stage).flatMap held).count r + (threads.map gave).sum =
      (threads.map took).sum := by
    clear balanced
    induction threads with
    | nil => rfl
    | cons thread rest ih =>
      have own := ledger thread List.mem_cons_self
      have later := ih fun other member => ledger other (List.mem_cons_of_mem _ member)
      simp only [List.map_cons, List.flatMap_cons, List.count_append, List.sum_cons]
      omega
  rw [balanced r, ← all]
  push_cast
  rfl

/-- Where each user that satisfies `p` holds a resource, there are no more of them than are taken
of it. -/
theorem Balanced.users_le (balanced : Balanced held taken stages) {user : κ → Option U}
    {p : U → Bool} {r : R}
    (holds : ∀ stage ∈ stages, ∀ u, user stage = some u → p u = true → r ∈ held stage) :
    (((stages.filterMap user).filter p).length : Int) ≤ taken r := by
  rw [balanced r]
  refine Int.ofNat_le.mpr ?_
  clear balanced
  induction stages with
  | nil => exact Nat.le_refl 0
  | cons stage rest ih =>
    have later := ih fun stage member => holds stage (List.mem_cons_of_mem _ member)
    rw [List.flatMap_cons, List.count_append]
    cases used : user stage with
    | none =>
      rw [List.filterMap_cons_none used]
      omega
    | some u =>
      rw [List.filterMap_cons_some used]
      cases matched : p u with
      | false =>
        rw [List.filter_cons_of_neg (by simp [matched])]
        omega
      | true =>
        have own := List.count_pos_iff.mpr (holds stage (by simp) u used matched)
        rw [List.filter_cons_of_pos matched, List.length_cons]
        omega

end Balance

end Tomb.Lib
