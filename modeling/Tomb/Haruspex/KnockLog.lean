import Tomb.Haruspex.Program
import Tomb.Lib.Runs

/-! The knock store over whole runs: what the records say is what the calls recorded. -/
namespace Tomb.Haruspex
open Tomb.Lib

inductive KnockOp where
  | create (nodeId : String) (direction : KnockDirection) (scope : KnockScope) (message : String)
      (createdAt : Int) (metadata : Option String)
  | recordDecision (id : Uuid) (decision : KnockDecision)
  | delete (id : Uuid)

namespace KnockOp

@[grind =] def prog : KnockOp → Prog Cmd StoreError Unit
  | .create nodeId direction scope message createdAt metadata => do
    let _ ← createKnock nodeId direction scope message createdAt metadata
    pure ()
  | .recordDecision id decision => do
    let _ ← Haruspex.recordDecision id decision
    pure ()
  | .delete id => Prog.attempt (.deleteKnock id)

@[grind =] def recorded : KnockOp → Except StoreError Unit → List (Uuid × KnockDecision)
  | .recordDecision id decision, .ok () => [(id, decision)]
  | _, _ => []

end KnockOp

structure KnockLog where
  stores : Stores
  recorded : List (Uuid × KnockDecision)

namespace KnockLog

@[grind =] def perform (op : KnockOp) (log : KnockLog) : KnockLog where
  stores := (op.prog.run log.stores).2
  recorded := log.recorded ++ op.recorded (op.prog.run log.stores).1

def start (s : Stores) : KnockLog := ⟨{ s with knocks := ∅ }, []⟩

@[grind =] def decisionsOf (log : KnockLog) (id : Uuid) : List KnockDecision :=
  (log.recorded.filter fun entry => decide (entry.1 = id)).map Prod.snd

def resolved (decisions : List KnockDecision) : KnockStatus :=
  decisions.getLast?.elim .pending KnockDecision.outcome

@[simp] theorem resolved_append (decisions : List KnockDecision) (decision : KnockDecision) :
    resolved (decisions ++ [decision]) = decision.outcome := by
  simp [resolved]

def OnePending (s : Stores) : Prop :=
  ∀ a ∈ s.knocks, ∀ b ∈ s.knocks, a.nodeId = b.nodeId → a.scope = b.scope →
    a.status = .pending → b.status = .pending → a = b

/-- What every call keeps. Ids are never handed out twice, so a new record has no decisions in the
log from an earlier record that was deleted. -/
structure Consistent (log : KnockLog) : Prop where
  onePending : OnePending log.stores
  decisions : ∀ row ∈ log.stores.knocks, row.decisions = log.decisionsOf row.id
  status : ∀ row ∈ log.stores.knocks, row.status = resolved row.decisions
  issued : ∀ row ∈ log.stores.knocks, ∃ serial < log.stores.serial, row.id = .v4 serial
  heard : ∀ entry ∈ log.recorded, ∃ serial < log.stores.serial, entry.1 = .v4 serial

theorem start_consistent (s : Stores) : (start s).Consistent where
  onePending _ present := absurd present (Table.not_mem_empty _)
  decisions _ present := absurd present (Table.not_mem_empty _)
  status _ present := absurd present (Table.not_mem_empty _)
  issued _ present := absurd present (Table.not_mem_empty _)
  heard _ present := absurd present List.not_mem_nil

theorem decisionsOf_append (log : KnockLog) (s : Stores) (more : List (Uuid × KnockDecision))
    (id : Uuid) : (⟨s, log.recorded ++ more⟩ : KnockLog).decisionsOf id =
      log.decisionsOf id ++ (more.filter fun entry => decide (entry.1 = id)).map Prod.snd := by
  simp [decisionsOf]

variable {log : KnockLog}

theorem Consistent.unheard (consistent : log.Consistent) :
    log.decisionsOf (.v4 log.stores.serial) = [] := by
  simp only [decisionsOf, List.map_eq_nil_iff, List.filter_eq_nil_iff, decide_eq_true_eq]
  intro entry present same
  obtain ⟨serial, below, named⟩ := consistent.heard entry present
  cases named.symm.trans same
  exact absurd below (lt_irrefl _)

/-! One call: each leaves the log as it was or does exactly one of three things. -/

theorem perform_create (log : KnockLog) (nodeId : String) (direction : KnockDirection)
    (scope : KnockScope) (message : String) (createdAt : Int) (metadata : Option String) :
    perform (.create nodeId direction scope message createdAt metadata) log = log ∨
      ∃ row : KnockRecord, row.id = .v4 log.stores.serial ∧ row.status = .pending ∧
        row.decisions = [] ∧
        (∀ other ∈ log.stores.knocks, other.nodeId = row.nodeId → other.scope = row.scope →
          ¬other.status = .pending) ∧
        perform (.create nodeId direction scope message createdAt metadata) log =
          ⟨{ log.stores with
            serial := log.stores.serial + 1
            knocks := log.stores.knocks.upsert row }, log.recorded⟩ := by
  cases dup : log.stores.knocks.rows.any fun row => decide (row.nodeId = nodeId) &&
      decide (row.scope = scope) && decide (row.status = .pending) with
  | true =>
    left
    simp [perform, KnockOp.prog, KnockOp.recorded, createKnock, Cmd.exec, Stores.createKnock, dup]
  | false =>
    right
    refine ⟨⟨.v4 log.stores.serial, nodeId, direction, scope, message, .pending, createdAt, none,
      none, [], metadata⟩, rfl, rfl, rfl, ?_, ?_⟩
    · intro other present sameNode sameScope
      simpa [sameNode, sameScope] using List.any_eq_false.mp dup other present
    · simp [perform, KnockOp.prog, KnockOp.recorded, createKnock, Cmd.exec, Stores.createKnock, dup,
        Stores.getKnock, Table.get_upsert]

theorem perform_recordDecision (log : KnockLog) (id : Uuid) (decision : KnockDecision) :
    perform (.recordDecision id decision) log = log ∨
      ∃ knock ∈ log.stores.knocks, knock.id = id ∧
        (decision.outcome = .pending → ∀ other ∈ log.stores.knocks, other.id ≠ id →
          other.nodeId = knock.nodeId → other.scope = knock.scope → ¬other.status = .pending) ∧
        perform (.recordDecision id decision) log =
          ⟨{ log.stores with
            knocks := log.stores.knocks.update (fun row => decide (row.id = id))
              (fun row => Stores.decided row decision) fun _ => rfl },
            log.recorded ++ [(id, decision)]⟩ := by
  cases found : log.stores.knocks.get id with
  | none =>
    left
    simp [perform, KnockOp.prog, KnockOp.recorded, recordDecision, Cmd.exec,
      Stores.recordDecision, found]
  | some knock =>
    obtain ⟨present, named⟩ := (Table.get_eq_some _ _ _).mp found
    cases refused : (decide (decision.outcome = .pending) && log.stores.knocks.rows.any fun row =>
        decide (row.id ≠ id) && decide (row.nodeId = knock.nodeId) &&
          decide (row.scope = knock.scope) && decide (row.status = .pending)) with
    | true =>
      left
      simp only [perform, KnockOp.prog, KnockOp.recorded, recordDecision, Prog.run_bind,
        Prog.run_attempt, machine_exec, Cmd.exec, Stores.recordDecision, found, refused, if_true,
        List.append_nil]
    | false =>
      right
      refine ⟨knock, present, named, ?_, ?_⟩
      · intro reopens other known differs sameNode sameScope
        simp only [reopens, decide_true, Bool.true_and] at refused
        simpa [differs, sameNode, sameScope] using List.any_eq_false.mp refused other known
      · have stored := Table.get_update log.stores.knocks (fun row => decide (row.id = id))
          (fun row => Stores.decided row decision) (fun _ => rfl) id
        rw [found, Option.map_some] at stored
        simp only [perform, KnockOp.prog, KnockOp.recorded, recordDecision, Prog.run_bind,
          Prog.run_attempt, machine_exec, Cmd.exec, Stores.recordDecision, found, refused,
          Prog.run_issue, Prog.run_ofOption, Stores.getKnock, Bool.false_eq_true, if_false, stored,
          Option.elim_some, Prog.pure_def, Prog.run_ret]

theorem perform_delete (log : KnockLog) (id : Uuid) :
    perform (.delete id) log = log ∨
      perform (.delete id) log =
        ⟨{ log.stores with
          knocks := log.stores.knocks.deleteWhere fun row => decide (row.id = id) },
          log.recorded⟩ := by
  simp only [perform, KnockOp.prog, KnockOp.recorded, Prog.run_attempt, machine_exec, Cmd.exec,
    Stores.deleteKnock, List.append_nil]
  split
  · exact .inl rfl
  · exact .inr rfl

theorem Consistent.create (consistent : log.Consistent) {row : KnockRecord}
    (named : row.id = .v4 log.stores.serial) (pending : row.status = .pending)
    (undecided : row.decisions = [])
    (only : ∀ other ∈ log.stores.knocks, other.nodeId = row.nodeId → other.scope = row.scope →
      ¬other.status = .pending) : Consistent ⟨{ log.stores with
      serial := log.stores.serial + 1
      knocks := log.stores.knocks.upsert row }, log.recorded⟩ := by
  constructor
  · intro a ha b hb sameNode sameScope pendingA pendingB
    rcases (Table.mem_upsert _ _ _).mp ha with rfl | ⟨knownA, -⟩ <;>
      rcases (Table.mem_upsert _ _ _).mp hb with rfl | ⟨knownB, -⟩
    · rfl
    · exact absurd pendingB (only b knownB sameNode.symm sameScope.symm)
    · exact absurd pendingA (only a knownA sameNode sameScope)
    · exact consistent.onePending a knownA b knownB sameNode sameScope pendingA pendingB
  · intro other member
    rcases (Table.mem_upsert _ _ _).mp member with rfl | ⟨known, -⟩
    · rw [undecided, named]
      exact consistent.unheard.symm
    · exact consistent.decisions other known
  · intro other member
    rcases (Table.mem_upsert _ _ _).mp member with rfl | ⟨known, -⟩
    · rw [undecided, pending]
      rfl
    · exact consistent.status other known
  · intro other member
    rcases (Table.mem_upsert _ _ _).mp member with rfl | ⟨known, -⟩
    · exact ⟨_, Nat.lt_succ_self _, named⟩
    · obtain ⟨serial, below, same⟩ := consistent.issued other known
      exact ⟨serial, Nat.lt_succ_of_lt below, same⟩
  · intro entry member
    obtain ⟨serial, below, same⟩ := consistent.heard entry member
    exact ⟨serial, Nat.lt_succ_of_lt below, same⟩

theorem Consistent.recordDecision (consistent : log.Consistent)
    {knock : KnockRecord} {id : Uuid} {decision : KnockDecision} (present : knock ∈ log.stores.knocks)
    (named : knock.id = id)
    (only : decision.outcome = .pending → ∀ other ∈ log.stores.knocks, other.id ≠ id →
      other.nodeId = knock.nodeId → other.scope = knock.scope → ¬other.status = .pending) :
    Consistent ⟨{ log.stores with
      knocks := log.stores.knocks.update (fun row => decide (row.id = id))
        (fun row => Stores.decided row decision) fun _ => rfl },
      log.recorded ++ [(id, decision)]⟩ := by
  -- a row of the new table is the decided knock or an old row with another id
  have rows : ∀ row ∈ log.stores.knocks.update (fun row => decide (row.id = id))
      (fun row => Stores.decided row decision) (fun _ => rfl),
      row = Stores.decided knock decision ∨ (row ∈ log.stores.knocks ∧ row.id ≠ id) := by
    intro row member
    obtain ⟨old, known, rfl⟩ := (Table.mem_update _ _ _ _ _).mp member
    by_cases same : old.id = id
    · cases log.stores.knocks.eq_of_key_eq known present (same.trans named.symm)
      exact .inl (if_pos (decide_eq_true same))
    · rw [if_neg (by simpa using same)]
      exact .inr ⟨known, same⟩
  constructor
  · intro a ha b hb sameNode sameScope pendingA pendingB
    rcases rows a ha with rfl | ⟨knownA, otherA⟩ <;> rcases rows b hb with rfl | ⟨knownB, otherB⟩
    · rfl
    · exact absurd pendingB (only pendingA b knownB otherB sameNode.symm sameScope.symm)
    · exact absurd pendingA (only pendingB a knownA otherA sameNode sameScope)
    · exact consistent.onePending a knownA b knownB sameNode sameScope pendingA pendingB
  · intro row member
    rw [decisionsOf_append]
    rcases rows row member with rfl | ⟨known, other⟩
    · simp [Stores.decided, consistent.decisions knock present, named]
    · simp [consistent.decisions row known, other.symm]
  · intro row member
    rcases rows row member with rfl | ⟨known, -⟩
    · exact (resolved_append _ _).symm
    · exact consistent.status row known
  · intro row member
    rcases rows row member with rfl | ⟨known, -⟩
    · exact consistent.issued knock present
    · exact consistent.issued row known
  · intro entry member
    rcases List.mem_append.mp member with old | new
    · exact consistent.heard entry old
    · cases List.mem_singleton.mp new
      exact named ▸ consistent.issued knock present

theorem Consistent.delete (consistent : log.Consistent) (id : Uuid) : Consistent ⟨{ log.stores with
      knocks := log.stores.knocks.deleteWhere fun row => decide (row.id = id) },
      log.recorded⟩ where
  onePending a ha b hb := consistent.onePending a ((Table.mem_deleteWhere _ _ _).mp ha).1 b
    ((Table.mem_deleteWhere _ _ _).mp hb).1
  decisions row member := consistent.decisions row ((Table.mem_deleteWhere _ _ _).mp member).1
  status row member := consistent.status row ((Table.mem_deleteWhere _ _ _).mp member).1
  issued row member := consistent.issued row ((Table.mem_deleteWhere _ _ _).mp member).1
  heard := consistent.heard

theorem Consistent.perform (consistent : log.Consistent) (op : KnockOp) :
    (perform op log).Consistent := by
  cases op with
  | create nodeId direction scope message createdAt metadata =>
    rcases perform_create log nodeId direction scope message createdAt metadata with
      same | ⟨row, named, pending, undecided, only, became⟩
    · rw [same]
      exact consistent
    · rw [became]
      exact consistent.create named pending undecided only
  | recordDecision id decision =>
    rcases perform_recordDecision log id decision with same | ⟨knock, present, named, only, became⟩
    · rw [same]
      exact consistent
    · rw [became]
      exact consistent.recordDecision present named only
  | delete id =>
    rcases perform_delete log id with same | became
    · rw [same]
      exact consistent
    · rw [became]
      exact consistent.delete id

/-- Whatever calls are made, no two pending records share a node and a scope, and every record's
decisions and status are those recorded for it. -/
theorem knock_store_invariant (s : Stores) (ops : List KnockOp) :
    OnePending (runAll perform ops (start s)).stores ∧
      ∀ row ∈ (runAll perform ops (start s)).stores.knocks,
        row.decisions = (runAll perform ops (start s)).decisionsOf row.id ∧
        row.status = resolved row.decisions := by
  have consistent : (runAll perform ops (start s)).Consistent :=
    runAll_keeps (fun op _ held => held.perform op) ops (start_consistent s)
  exact ⟨consistent.onePending,
    fun row present => ⟨consistent.decisions row present, consistent.status row present⟩⟩

end KnockLog

end Tomb.Haruspex
