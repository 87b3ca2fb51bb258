import Tomb.Grimoire.Music.Taxonomy

/-! The taxonomy has no cycles, as long as no call inserts an edge on an answer of its check that no
longer stands. -/
namespace Tomb.Grimoire.Taxonomy
open Tomb.Lib Relation

namespace Tables

variable (t : Tables)

theorem mem_parents {child parent : String} :
    parent ∈ t.parents child ↔ t.HasParent child parent := by
  simp only [parents, HasParent, List.mem_map, List.mem_filter, decide_eq_true_eq]
  constructor
  · rintro ⟨edge, ⟨member, rfl⟩, rfl⟩
    exact member
  · intro member
    exact ⟨_, ⟨member, rfl⟩, rfl⟩

theorem mem_ancestors {start taxon : String} :
    taxon ∈ t.ancestors start ↔ TransGen t.HasParent start taxon := by
  have inside (child : String) : t.parents child ⊆ t.taxonParentz.map Prod.snd :=
    fun parent member => List.mem_map.mpr ⟨_, t.mem_parents.mp member, rfl⟩
  have same : (fun child parent => parent ∈ t.parents child) = t.HasParent :=
    funext fun child => funext fun parent => propext t.mem_parents
  rw [ancestors, mem_reached inside (inside start), same, TransGen.head'_iff]
  simp only [t.mem_parents]

variable {childId parentId : String}

theorem wouldFormCycle_iff :
    t.wouldFormCycle childId parentId = true ↔ TransGen t.HasParent parentId childId :=
  decide_eq_true_iff.trans t.mem_ancestors

theorem wouldFormCycle_eq_false_iff :
    t.wouldFormCycle childId parentId = false ↔ ¬TransGen t.HasParent parentId childId := by
  rw [← t.wouldFormCycle_iff, Bool.not_eq_true]

theorem taxons_of_path {start taxon : String} (path : TransGen t.HasParent start taxon) :
    start ∈ t.taxonz.map TaxonRow.id ∧ taxon ∈ t.taxonz.map TaxonRow.id := by
  obtain ⟨parent, first, -⟩ := TransGen.head'_iff.mp path
  obtain ⟨child, -, last⟩ := TransGen.tail'_iff.mp path
  exact ⟨(t.references _ first).1, (t.references _ last).2⟩

theorem acyclic_insertParent_iff (acyclic : Acyclic t.HasParent) (apart : childId ≠ parentId) :
    Acyclic (t.insertParent childId parentId).2.HasParent ↔
      t.wouldFormCycle childId parentId = false := by
  rw [t.wouldFormCycle_eq_false_iff]
  unfold insertParent
  split
  · rename_i there
    exact iff_of_true acyclic fun path => acyclic parentId (path.tail there)
  · split
    · have added {t' : Tables} (edges : t'.taxonParentz = t.taxonParentz ++ [(childId, parentId)]) :
          t'.HasParent = Acyclic.addPair t.HasParent childId parentId := by
        funext child parent
        simp only [HasParent, Acyclic.addPair, edges, List.mem_append, List.mem_singleton,
          Prod.mk.injEq]
      rw [added rfl, acyclic.addPair_iff, and_iff_right apart]
    · rename_i invalid
      refine iff_of_true acyclic fun path => invalid ⟨apart, ?_⟩
      exact (t.taxons_of_path path).symm

theorem acyclic_deleteParent (acyclic : Acyclic t.HasParent) (childId parentId : String) :
    Acyclic (t.deleteParent childId parentId).HasParent :=
  acyclic.mono fun _ _ member => (List.mem_filter.mp member).1

theorem hasParent_insertTaxon (row : TaxonRow) : (t.insertTaxon row).2.HasParent = t.HasParent := by
  unfold insertTaxon
  split
  · rfl
  · rfl

end Tables

/-- What a call has checked with its last statement. The statement behind a check is the insert of
its edge, if it found no cycle; edges are inserted there only. -/
def checks : Protocol Sql (Option (String × String × Bool)) where
  start := none
  next _ {_} command answer := match command, answer with
    | .wouldFormCycle childId parentId, hit => some (childId, parentId, hit)
    | _, _ => none
  legal stage {_} command := match stage, command with
    | none, .insertParent _ _ => False
    | none, _ => True
    | some (childId, parentId, hit), .insertParent childId' parentId' =>
      hit = false ∧ childId ≠ parentId ∧ childId' = childId ∧ parentId' = parentId
    | some _, _ => False
  final _ _ := True

def checksStand : Guard Sql Tables String Unit := fun t _ thread _ =>
  match thread.status, checks.stage thread.past with
  | .running, some (childId, parentId, hit) => t.wouldFormCycle childId parentId = hit
  | _, _ => True

instance (t : Tables) (before : List (Thread Sql String Unit)) (thread : Thread Sql String Unit)
    (after : List (Thread Sql String Unit)) : Decidable (checksStand t before thread after) :=
  match status : thread.status, stage : checks.stage thread.past with
  | .running, some (childId, parentId, hit) =>
    decidable_of_iff (t.wouldFormCycle childId parentId = hit) (by
      simp only [checksStand, status, stage])
  | .running, none => .isTrue (by simp only [checksStand, status, stage])
  | .returned, _ => .isTrue (by simp only [checksStand, status])
  | .failed, _ => .isTrue (by simp only [checksStand, status])

theorem addTaxonParent_follows (childId parentId : String) {post : _ → Except String Unit → Prop}
    (ends : ∀ result, post none result) (refused : ∀ stage error, post stage (.error error)) :
    checks.Follows (addTaxonParent childId parentId) none post := by
  unfold addTaxonParent
  simp only [Protocol.follows_bind, Protocol.follows_require, Protocol.follows_issue,
    Protocol.follows_attempt, decide_eq_true_eq, Bool.not_eq_true']
  refine ⟨fun apart => ⟨trivial, fun hit => ⟨?_, fun _ => refused _ _⟩⟩, fun _ => refused _ _⟩
  rintro rfl
  exact ⟨⟨rfl, apart, rfl, rfl⟩, ends⟩

theorem linkParents_follows (childId : String) (parentIds : List String) :
    checks.Follows (linkParents childId parentIds) none fun _ _ => True := by
  induction parentIds with
  | nil => exact trivial
  | cons parentId rest ih =>
    rw [linkParents, Protocol.follows_bind]
    refine addTaxonParent_follows childId parentId (fun result => ?_) fun _ _ => trivial
    cases result with
    | ok _ => exact ih
    | error _ => trivial

theorem findOrCreateTaxon_follows (kindSlug label id : String) (now : Int)
    {post : _ → Except String Taxon → Prop} (ends : ∀ result, post none result) :
    checks.Follows (findOrCreateTaxon kindSlug label id now) none post := by
  unfold findOrCreateTaxon
  simp only [Protocol.follows_bind, Protocol.follows_require, Protocol.follows_issue,
    Protocol.follows_ofOption]
  refine ⟨fun _ => ⟨trivial, fun kindId => ⟨fun _ _ => ⟨trivial, fun found => ?_⟩, fun _ => ends _⟩⟩,
    fun _ => ends _⟩
  cases found with
  | some row => exact ends _
  | none =>
    simp only [Protocol.follows_bind, Protocol.follows_attempt]
    refine ⟨trivial, fun inserted => ?_⟩
    cases inserted with
    | ok row => exact ends _
    | error message => exact ends _

theorem prog_follows (call : TaxonCall) : checks.Follows call.prog none fun _ _ => True := by
  cases call with
  | addTaxonParent childId parentId =>
    exact addTaxonParent_follows childId parentId (fun _ => trivial) fun _ _ => trivial
  | removeTaxonParent childId parentId => exact ⟨trivial, fun _ => trivial⟩
  | createTaxon kindSlug label parentIds id now =>
    simp only [TaxonCall.prog, createTaxon, Protocol.follows_bind]
    have follows := @findOrCreateTaxon_follows kindSlug label id now
    -- A name for the program keeps the unifier from running it.
    generalize findOrCreateTaxon kindSlug label id now = found at follows ⊢
    refine follows fun result => ?_
    cases result with
    | error message => trivial
    | ok taxon =>
      refine (linkParents_follows taxon.row.id (parentIds.getD [])).imp fun _ linked _ => ?_
      cases linked with
      | ok _ => trivial
      | error message => trivial
  | deleteTaxon id deletedBy now => exact ⟨trivial, fun _ => trivial⟩

/-- One statement: cycles come from inserts alone, and from those whose check no longer stands. -/
theorem acyclic_exec_iff {t : Tables} (acyclic : Acyclic t.HasParent)
    {thread : Thread Sql String Unit} {β : Type} {command : Sql β} {next : β → Call Unit}
    (calls : thread.prog = .call command next) (legal : checks.legal (checks.stage thread.past) command)
    (before after : List (Thread Sql String Unit)) :
    Acyclic (Machine.exec command t).2.HasParent ↔ checksStand t before thread after := by
  have running : thread.status = .running := by
    rw [Thread.status, calls]
    rfl
  simp only [checksStand, running]
  cases stage : checks.stage thread.past with
  | none =>
    rw [stage] at legal
    refine iff_of_true ?_ trivial
    cases command with
    | insertParent childId parentId => exact legal.elim
    | selectKind kindSlug => exact acyclic
    | selectTaxon kindId slug => exact acyclic
    | insertTaxon row =>
      change Acyclic (t.insertTaxon row).2.HasParent
      rw [t.hasParent_insertTaxon]
      exact acyclic
    | wouldFormCycle childId parentId => exact acyclic
    | deleteParent childId parentId => exact t.acyclic_deleteParent acyclic childId parentId
    | markDeleted id now deletedBy => exact acyclic
  | some check =>
    obtain ⟨childId, parentId, hit⟩ := check
    rw [stage] at legal
    cases command with
    | insertParent childId' parentId' =>
      obtain ⟨rfl, apart, rfl, rfl⟩ := legal
      exact t.acyclic_insertParent_iff acyclic apart
    | selectKind kindSlug => exact legal.elim
    | selectTaxon kindId slug => exact legal.elim
    | insertTaxon row => exact legal.elim
    | wouldFormCycle childId parentId => exact legal.elim
    | deleteParent childId parentId => exact legal.elim
    | markDeleted id now deletedBy => exact legal.elim

/-- Whatever the interleaving of the calls' statements: as long as no insert follows a check that no
longer stands, no taxon is its own ancestor. -/
theorem taxonomy_acyclic (t : Tables) (calls : List TaxonCall)
    (pool : Pool Sql Tables String Unit) (acyclic : Acyclic t.HasParent)
    (run : Pool.Run (fun _ _ => False) checksStand (.start t (calls.map TaxonCall.prog)) pool) :
    Acyclic pool.state.HasParent := by
  refine (Pool.Run.keeps checks (fun t _ => Acyclic t.HasParent) (fun change => change.elim)
    (fun called stands legal _ holds => ?_) ?_ acyclic run).2
  · exact (acyclic_exec_iff holds called legal _ _).mpr stands
  · intro thread member
    obtain ⟨prog, begun, rfl⟩ := List.mem_map.mp member
    obtain ⟨call, -, rfl⟩ := List.mem_map.mp begun
    exact prog_follows call

def rockAndPop : Tables where
  taxonKindz := [⟨"k", "genre", none⟩]
  taxonz := [⟨"rock", "k", "rock", "rock", none, none, true, 0, none, none, none⟩,
    ⟨"pop", "k", "pop", "pop", none, none, true, 0, none, none, none⟩]
  taxonParentz := []
  references _ member := nomatch member

theorem rockAndPop_acyclic : Acyclic rockAndPop.HasParent := by
  intro taxon cycle
  obtain ⟨_, edge, -⟩ := TransGen.head'_iff.mp cycle
  cases edge

def eachOther : List TaxonCall := [.addTaxonParent "rock" "pop", .addTaxonParent "pop" "rock"]

/-- One after the other, the second call is refused. -/
theorem second_parent_refused :
    ((Pool.start rockAndPop (eachOther.map TaxonCall.prog)).schedule
        [0, 0, 1, 1]).state.taxonParentz = [("rock", "pop")] ∧
      Acyclic ((Pool.start rockAndPop (eachOther.map TaxonCall.prog)).schedule
        [0, 0, 1, 1]).state.HasParent :=
  ⟨by decide, taxonomy_acyclic rockAndPop eachOther _ rockAndPop_acyclic
    (Pool.run_of_admitted (by decide))⟩

/-- With both checks before both inserts, each taxon is an ancestor of itself. -/
theorem concurrent_parents_close_cycle : ¬∀ (t : Tables) (calls : List TaxonCall)
    (pool : Pool Sql Tables String Unit), Acyclic t.HasParent →
    Pool.Run (fun _ _ => False) Guard.any (.start t (calls.map TaxonCall.prog)) pool →
    Acyclic pool.state.HasParent := by
  intro claimed
  have acyclic := claimed rockAndPop eachOther _ rockAndPop_acyclic
    (Pool.run_schedule _ [0, 1, 0, 1])
  have up : Tables.HasParent ((Pool.start rockAndPop (eachOther.map TaxonCall.prog)).schedule
      [0, 1, 0, 1]).state "rock" "pop" := by
    unfold Tables.HasParent
    decide
  have down : Tables.HasParent ((Pool.start rockAndPop (eachOther.map TaxonCall.prog)).schedule
      [0, 1, 0, 1]).state "pop" "rock" := by
    unfold Tables.HasParent
    decide
  exact acyclic "rock" (.tail (.single up) down)

end Tomb.Grimoire.Taxonomy
