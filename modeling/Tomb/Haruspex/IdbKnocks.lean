import Tomb.Haruspex.Basic
import Tomb.Lib.Runs
import Tomb.Lib.Words

/-! The knock store that browsers keep in IndexedDB. Its rows carry a text of the scope for the index
that finds duplicates; the database's own store compares the scopes themselves. -/
namespace Tomb.Haruspex.IdbKnocks
open Tomb.Lib

inductive KnockScope where
  | account (requestedUsername : Option String)
  | browse
  | resource (resourceId : String) (requestedRole : Option String)

structure KnockDecision where
  byNodeId : String
  outcome : KnockStatus
  grantedRole : Option String
  at_ : Int
  decides : outcome ≠ .pending

structure KnockRecord where
  (id nodeId : String)
  direction : KnockDirection
  scope : KnockScope
  message : String
  status : KnockStatus
  createdAt : Int
  processedAt : Option Int
  processedBy : Option String
  decisions : List KnockDecision
  grantedResourceIds : Option (List String)
  metadata : Option String

structure KnockRow extends KnockRecord where
  scopeKey : String

def scopeKey : KnockScope → String
  | .account requestedUsername => "account:" ++ requestedUsername.getD ""
  | .browse => "browse"
  | .resource resourceId requestedRole =>
    "resource:" ++ (resourceId ++ ":" ++ requestedRole.getD "")

def toRow (record : KnockRecord) : KnockRow := { record with scopeKey := scopeKey record.scope }

def fromRow (row : KnockRow) : KnockRecord := row.toKnockRecord

structure CreateKnockInput where
  nodeId : String
  direction : KnockDirection
  scope : KnockScope
  message : Option String
  createdAt : Option Int
  metadata : Option String

structure KnockConflictError where
  nodeId : String
  scope : KnockScope

def put (row : KnockRow) (rows : List KnockRow) : List KnockRow :=
  row :: rows.filter fun other => other.id ≠ row.id

def getAllKeys (nodeId key : String) (status : KnockStatus) (rows : List KnockRow) : List String :=
  (rows.filter fun row => row.nodeId = nodeId ∧ row.scopeKey = key ∧ row.status = status).map
    fun row => row.id

@[grind =]
def createKnock (input : CreateKnockInput) (randomUUID : String) (now : Int) (rows : List KnockRow) :
    Except KnockConflictError KnockRecord × List KnockRow :=
  if 0 < (getAllKeys input.nodeId (scopeKey input.scope) .pending rows).length then
    (.error ⟨input.nodeId, input.scope⟩, rows)
  else
    let record : KnockRecord :=
      { id := randomUUID
        nodeId := input.nodeId
        direction := input.direction
        scope := input.scope
        message := input.message.getD ""
        status := .pending
        createdAt := input.createdAt.getD now
        processedAt := none
        processedBy := none
        decisions := []
        grantedResourceIds := none
        metadata := input.metadata }
    (.ok record, put (toRow record) rows)

def recordDecision (id : String) (decision : KnockDecision)
    (grantedResourceIds : Option (List String)) (rows : List KnockRow) :
    Option KnockRecord × List KnockRow :=
  match rows.find? fun row => row.id = id with
  | none => (none, rows)
  | some row =>
    let record := fromRow row
    let updated : KnockRecord :=
      { record with
        status := decision.outcome
        processedAt := some decision.at_
        processedBy := some decision.byNodeId
        decisions := record.decisions ++ [decision]
        grantedResourceIds := grantedResourceIds.or record.grantedResourceIds }
    (some updated, put (toRow updated) rows)

def deleteKnock (id : String) (rows : List KnockRow) : List KnockRow :=
  rows.filter fun row => row.id ≠ id

inductive Call where
  | create (input : CreateKnockInput) (randomUUID : String) (now : Int)
  | decide (id : String) (decision : KnockDecision) (grantedResourceIds : Option (List String))
  | delete (id : String)

def step : Call → List KnockRow → List KnockRow
  | .create input randomUUID now, rows => (createKnock input randomUUID now rows).2
  | .decide id decision grantedResourceIds, rows =>
    (recordDecision id decision grantedResourceIds rows).2
  | .delete id, rows => deleteKnock id rows

def Reached (rows : List KnockRow) : Prop := ∃ calls, rows = runAll step calls []

def Keyed (rows : List KnockRow) : Prop := ∀ row ∈ rows, row.scopeKey = scopeKey row.scope

theorem put_keyed {rows : List KnockRow} (keyed : Keyed rows) (record : KnockRecord) :
    Keyed (put (toRow record) rows) := by
  intro row member
  obtain rfl | old := List.mem_cons.mp member
  · rfl
  · exact keyed row (List.mem_of_mem_filter old)

theorem step_keyed (call : Call) (rows : List KnockRow) (keyed : Keyed rows) :
    Keyed (step call rows) := by
  cases call with
  | create input randomUUID now =>
    rw [step, createKnock]
    split
    · exact keyed
    · exact put_keyed keyed _
  | decide id decision grantedResourceIds =>
    rw [step, recordDecision]
    split
    · exact keyed
    · exact put_keyed keyed _
  | delete id => exact fun row member => keyed row (List.mem_of_mem_filter member)

theorem Reached.keyed {rows : List KnockRow} (reached : Reached rows) : Keyed rows := by
  obtain ⟨calls, rfl⟩ := reached
  exact runAll_keeps step_keyed calls fun _ member => (nomatch member)

section Keys

/-- Two scopes of one key: a missing text beside an empty one, or a colon that counts to the
resource's id in one and to the role in the other. -/
inductive Collide : KnockScope → KnockScope → Prop
  | unnamed : Collide (.account none) (.account (some ""))
  | unasked (id : String) : Collide (.resource id none) (.resource id (some ""))
  | shifted (id rest : String) (role : Option String) :
      Collide (.resource (id ++ ":" ++ rest) role)
        (.resource id (some (rest ++ ":" ++ role.getD "")))

theorem getD_eq_iff {a b : Option String} : a.getD "" = b.getD "" ↔
    a = b ∨ (a = none ∧ b = some "") ∨ a = some "" ∧ b = none := by
  cases a with
  | none =>
    cases b with
    | none => simp
    | some text => simp [eq_comm]
  | some text =>
    cases b with
    | none => simp
    | some other => simp

theorem resource_key_iff {id id' role role' : String} :
    id ++ ":" ++ role = id' ++ ":" ++ role' ↔ (id = id' ∧ role = role') ∨
      (∃ rest, id' = id ++ ":" ++ rest ∧ role = rest ++ ":" ++ role') ∨
        ∃ rest, id = id' ++ ":" ++ rest ∧ role' = rest ++ ":" ++ role := by
  have lists (a b : String) : (a ++ ":" ++ b).toList = a.toList ++ ':' :: b.toList := by
    simp [String.toList_append]
  rw [← String.toList_inj, lists, lists, append_cons_eq_iff, String.toList_inj, String.toList_inj]
  refine or_congr_right (or_congr ?_ ?_)
  · constructor
    · rintro ⟨t, cut, rest⟩
      refine ⟨String.ofList t, ?_, ?_⟩
      · rw [← String.toList_inj, lists, String.toList_ofList, cut]
      · rw [← String.toList_inj, lists, String.toList_ofList, rest]
    · rintro ⟨t, rfl, rfl⟩
      exact ⟨t.toList, lists _ _, lists _ _⟩
  · constructor
    · rintro ⟨t, cut, rest⟩
      refine ⟨String.ofList t, ?_, ?_⟩
      · rw [← String.toList_inj, lists, String.toList_ofList, cut]
      · rw [← String.toList_inj, lists, String.toList_ofList, rest]
    · rintro ⟨t, rfl, rfl⟩
      exact ⟨t.toList, lists _ _, lists _ _⟩

theorem scopeKey_eq_iff {a b : KnockScope} :
    scopeKey a = scopeKey b ↔ a = b ∨ Collide a b ∨ Collide b a := by
  constructor
  · intro same
    cases a with
    | browse =>
      cases b with
      | browse => exact .inl rfl
      | account name => exact absurd (congrArg String.toList same) (by simp [scopeKey])
      | resource id role => exact absurd (congrArg String.toList same) (by simp [scopeKey])
    | account name =>
      cases b with
      | browse => exact absurd (congrArg String.toList same) (by simp [scopeKey])
      | resource id role => exact absurd (congrArg String.toList same) (by simp [scopeKey])
      | account other =>
        have texts : name.getD "" = other.getD "" := by simpa [scopeKey] using same
        obtain rfl | ⟨rfl, rfl⟩ | ⟨rfl, rfl⟩ := getD_eq_iff.mp texts
        · exact .inl rfl
        · exact .inr (.inl .unnamed)
        · exact .inr (.inr .unnamed)
    | resource id role =>
      cases b with
      | browse => exact absurd (congrArg String.toList same) (by simp [scopeKey])
      | account name => exact absurd (congrArg String.toList same) (by simp [scopeKey])
      | resource id' role' =>
        have texts : id ++ ":" ++ role.getD "" = id' ++ ":" ++ role'.getD "" := by
          simpa [scopeKey] using same
        obtain ⟨rfl, roles⟩ | ⟨rest, rfl, longer⟩ | ⟨rest, rfl, longer⟩ := resource_key_iff.mp texts
        · obtain rfl | ⟨rfl, rfl⟩ | ⟨rfl, rfl⟩ := getD_eq_iff.mp roles
          · exact .inl rfl
          · exact .inr (.inl (.unasked id))
          · exact .inr (.inr (.unasked id))
        · cases role with
          | none => exact absurd (congrArg String.toList longer) (by simp)
          | some text =>
            have asked : text = rest ++ ":" ++ role'.getD "" := longer
            rw [asked]
            exact .inr (.inr (.shifted id rest role'))
        · cases role' with
          | none => exact absurd (congrArg String.toList longer) (by simp)
          | some text =>
            have asked : text = rest ++ ":" ++ role.getD "" := longer
            rw [asked]
            exact .inr (.inl (.shifted id' rest role))
  · have key {a b : KnockScope} (collide : Collide a b) : scopeKey a = scopeKey b := by
      cases collide with
      | unnamed => rfl
      | unasked id => rfl
      | shifted id rest role =>
        simp only [scopeKey, Option.getD_some, String.append_assoc]
    rintro (rfl | collide | collide)
    · rfl
    · exact key collide
    · exact (key collide).symm

end Keys

section Mirror

end Mirror

section Duplicates

variable {rows : List KnockRow} {input : CreateKnockInput}

def Pending (input : CreateKnockInput) (rows : List KnockRow) : Prop :=
  ∃ row ∈ rows, row.status = .pending ∧ row.nodeId = input.nodeId ∧ row.scope = input.scope

def Rejects (input : CreateKnockInput) (randomUUID : String) (now : Int) (rows : List KnockRow) :
    Prop :=
  (createKnock input randomUUID now rows).1 = .error ⟨input.nodeId, input.scope⟩

theorem rejects_iff_key (keyed : Keyed rows) (randomUUID : String) (now : Int) :
    Rejects input randomUUID now rows ↔ ∃ row ∈ rows, row.status = .pending ∧
      row.nodeId = input.nodeId ∧ scopeKey row.scope = scopeKey input.scope := by
  have found : 0 < (getAllKeys input.nodeId (scopeKey input.scope) .pending rows).length ↔
      ∃ row ∈ rows, row.status = .pending ∧ row.nodeId = input.nodeId ∧
        scopeKey row.scope = scopeKey input.scope := by
    unfold getAllKeys
    rw [List.length_map, List.length_pos_iff_exists_mem]
    constructor
    · rintro ⟨row, member⟩
      obtain ⟨stored, facts⟩ := List.mem_filter.mp member
      obtain ⟨node, key, pending⟩ := of_decide_eq_true facts
      exact ⟨row, stored, pending, node, (keyed row stored).symm.trans key⟩
    · rintro ⟨row, stored, pending, node, key⟩
      exact ⟨row, List.mem_filter.mpr
        ⟨stored, decide_eq_true ⟨node, (keyed row stored).trans key, pending⟩⟩⟩
  unfold Rejects createKnock
  rw [← found]
  constructor
  · intro refused
    by_contra unknown
    rw [if_neg unknown] at refused
    cases refused
  · intro known
    rw [if_pos known]

/-- The store rejects the duplicates and nothing else exactly where no other scope's pending knock
collides with the new one. -/
theorem rejects_iff_pending_iff (reached : Reached rows) (randomUUID : String) (now : Int) :
    (Rejects input randomUUID now rows ↔ Pending input rows) ↔
      Pending input rows ∨ ∀ row ∈ rows, row.status = .pending → row.nodeId = input.nodeId →
        ¬ Collide row.scope input.scope ∧ ¬ Collide input.scope row.scope := by
  rw [rejects_iff_key reached.keyed]
  constructor
  · intro exact
    by_cases known : Pending input rows
    · exact .inl known
    · refine .inr fun row stored pending node => ⟨fun collide => ?_, fun collide => ?_⟩
      · exact known (exact.mp
          ⟨row, stored, pending, node, scopeKey_eq_iff.mpr (.inr (.inl collide))⟩)
      · exact known (exact.mp
          ⟨row, stored, pending, node, scopeKey_eq_iff.mpr (.inr (.inr collide))⟩)
  · intro apart
    constructor
    · rintro ⟨row, stored, pending, node, key⟩
      obtain known | apart := apart
      · exact known
      · obtain ⟨one, other⟩ := apart row stored pending node
        obtain same | collide | collide := scopeKey_eq_iff.mp key
        · exact ⟨row, stored, pending, node, same⟩
        · exact absurd collide one
        · exact absurd collide other
    · rintro ⟨row, stored, pending, node, same⟩
      exact ⟨row, stored, pending, node, congrArg scopeKey same⟩

end Duplicates

def knockOf (nodeId : String) (scope : KnockScope) : CreateKnockInput :=
  ⟨nodeId, .inbound, scope, none, none, none⟩

def unnamedKnock : List KnockRow :=
  runAll step [.create (knockOf "node" (.account none)) "first" 0] []

theorem named_knock_is_new :
    (Rejects (knockOf "node" (.account (some "ada"))) "second" 1 unnamedKnock ↔
      Pending (knockOf "node" (.account (some "ada"))) unnamedKnock) := by
  refine (rejects_iff_pending_iff ⟨_, rfl⟩ "second" 1).mpr (.inr fun row stored _ _ => ?_)
  obtain rfl := List.mem_singleton.mp stored
  constructor
  · intro collide
    change Collide (.account none) (.account (some "ada")) at collide
    generalize named : "ada" = name at collide
    cases collide
    exact absurd named (by decide)
  · intro collide
    change Collide (.account (some "ada")) (.account none) at collide
    cases collide

/-- The knock with an empty username is rejected beside the one without any. -/
theorem blank_username_rejected :
    Reached unnamedKnock ∧ Rejects (knockOf "node" (.account (some ""))) "second" 1 unnamedKnock ∧
      ¬ Pending (knockOf "node" (.account (some ""))) unnamedKnock := by
  have reached : Reached unnamedKnock := ⟨_, rfl⟩
  refine ⟨reached, (rejects_iff_key reached.keyed "second" 1).mpr ?_, ?_⟩
  · exact ⟨_, List.mem_singleton_self _, rfl, rfl, rfl⟩
  rintro ⟨row, stored, -, -, same⟩
  obtain rfl := List.mem_singleton.mp stored
  cases same

end Tomb.Haruspex.IdbKnocks
