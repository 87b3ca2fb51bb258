import Tomb.Lib.Pool
import Tomb.Lib.Reach
import Tomb.Lib.Text

/-! Taxons and their parents: the tables, the repository's SQL statements on them, and its functions
as programs of such statements. Ids and the time are drawn by the caller. -/
namespace Tomb.Grimoire.Taxonomy
open Tomb.Lib

def slugifyTaxonLabel (label : String) : String :=
  let (out, _) := label.toList.foldl (fun (out, lastDash) ch =>
    if ch.isAlphanum then (out ++ [ch.toLower], false)
    else if !lastDash then (out ++ ['-'], true)
    else (out, lastDash)) (([] : List Char), true)
  let out := out.rdropWhile (· = '-')
  if out.isEmpty then "untitled" else String.ofList out

structure TaxonKind where
  (id slug : String)
  deletedAt : Option Int

structure TaxonRow where
  (id kindId slug label : String)
  (description color : Option String)
  isUserDefined : Bool
  createdAt : Int
  createdBy : Option String
  deletedAt : Option Int
  deletedBy : Option String

structure Taxon where
  row : TaxonRow
  kindSlug : String

/-- The tables. A row of `taxon_parentz` is a child and a parent of it, both of them taxons. -/
structure Tables where
  taxonKindz : List TaxonKind
  taxonz : List TaxonRow
  taxonParentz : List (String × String)
  references : ∀ edge ∈ taxonParentz,
    edge.1 ∈ taxonz.map TaxonRow.id ∧ edge.2 ∈ taxonz.map TaxonRow.id

namespace Tables

variable (t : Tables)

@[grind =] def HasParent (child parent : String) : Prop := (child, parent) ∈ t.taxonParentz

def parents (child : String) : List String :=
  (t.taxonParentz.filter (·.1 = child)).map Prod.snd

def ancestors (start : String) : List String :=
  reached t.parents (t.taxonParentz.map Prod.snd) (t.parents start)

def wouldFormCycle (childId parentId : String) : Bool := decide (childId ∈ t.ancestors parentId)

def selectKind (kindSlug : String) : Option String :=
  (t.taxonKindz.find? fun kind => kind.slug = kindSlug && kind.deletedAt.isNone).map TaxonKind.id

def selectTaxon (kindId slug : String) : Option TaxonRow :=
  t.taxonz.find? fun row => row.kindId = kindId && row.slug = slug && row.deletedAt.isNone

/-- Ids are unique, and so are the slugs of one kind among the rows that are not deleted. -/
def insertTaxon (row : TaxonRow) : Except String TaxonRow × Tables :=
  if row.id ∈ t.taxonz.map TaxonRow.id ∨ (t.selectTaxon row.kindId row.slug).isSome ∨
      row.kindId ∉ t.taxonKindz.map TaxonKind.id then
    (.error "failed to create taxon", t)
  else (.ok row, { t with
    taxonz := t.taxonz ++ [row]
    references := fun edge member => by
      rw [List.map_append]
      exact ⟨List.mem_append_left _ (t.references edge member).1,
        List.mem_append_left _ (t.references edge member).2⟩ })

-- one named proof for the membership test of the pairs below
local instance pairLawful : LawfulBEq (String × String) := inferInstance

def insertParent (childId parentId : String) : Except String Unit × Tables :=
  if (childId, parentId) ∈ t.taxonParentz then (.ok (), t)
  else if valid : childId ≠ parentId ∧ childId ∈ t.taxonz.map TaxonRow.id ∧
      parentId ∈ t.taxonz.map TaxonRow.id then
    (.ok (), { t with
      taxonParentz := t.taxonParentz ++ [(childId, parentId)]
      references := fun edge member => by
        obtain old | new := List.mem_append.mp member
        · exact t.references edge old
        · rw [List.mem_singleton.mp new]
          exact valid.2 })
  else (.error "failed to add taxon parent", t)

def deleteParent (childId parentId : String) : Tables :=
  { t with
    taxonParentz := t.taxonParentz.filter (· ≠ (childId, parentId))
    references := fun edge member => t.references edge (List.mem_filter.mp member).1 }

def markDeleted (id : String) (now : Int) (deletedBy : Option String) : Tables :=
  { t with
    taxonz := t.taxonz.map fun row =>
      if row.id = id ∧ row.deletedAt.isNone then
        { row with deletedAt := some now, deletedBy := deletedBy }
      else row
    references := fun edge member => by
      have ids : (t.taxonz.map fun row => if row.id = id ∧ row.deletedAt.isNone then
          { row with deletedAt := some now, deletedBy := deletedBy } else row).map TaxonRow.id =
          t.taxonz.map TaxonRow.id := by
        rw [List.map_map]
        refine List.map_congr_left fun row _ => ?_
        rw [Function.comp_apply]
        split
        · rfl
        · rfl
      rw [ids]
      exact t.references edge member }

end Tables

inductive Sql : Type → Type where
  | selectKind (kindSlug : String) : Sql (Option String)
  | selectTaxon (kindId slug : String) : Sql (Option TaxonRow)
  | insertTaxon (row : TaxonRow) : Sql (Except String TaxonRow)
  | wouldFormCycle (childId parentId : String) : Sql Bool
  | insertParent (childId parentId : String) : Sql (Except String Unit)
  | deleteParent (childId parentId : String) : Sql Unit
  | markDeleted (id : String) (now : Int) (deletedBy : Option String) : Sql Unit

@[grind =] def Sql.exec : {β : Type} → Sql β → Tables → β × Tables
  | _, .selectKind kindSlug, t => (t.selectKind kindSlug, t)
  | _, .selectTaxon kindId slug, t => (t.selectTaxon kindId slug, t)
  | _, .insertTaxon row, t => t.insertTaxon row
  | _, .wouldFormCycle childId parentId, t => (t.wouldFormCycle childId parentId, t)
  | _, .insertParent childId parentId, t => t.insertParent childId parentId
  | _, .deleteParent childId parentId, t => ((), t.deleteParent childId parentId)
  | _, .markDeleted id now deletedBy, t => ((), t.markDeleted id now deletedBy)

instance : Machine Sql Tables where
  exec := Sql.exec

abbrev Call (α : Type) := Prog Sql String α

def findOrCreateTaxon (kindSlug label id : String) (now : Int) : Call Taxon := do
  let label := Text.trim label
  Prog.require (label ≠ "") "taxon label is required"
  let slug := slugifyTaxonLabel label
  let kindId ← (← Prog.issue (.selectKind kindSlug)) |> Prog.ofOption "unknown taxon kind"
  match ← Prog.issue (.selectTaxon kindId slug) with
  | some row => return ⟨row, kindSlug⟩
  | none =>
    let row ← Prog.attempt
      (.insertTaxon ⟨id, kindId, slug, label, none, none, true, now, none, none, none⟩)
    return ⟨row, kindSlug⟩

def addTaxonParent (childId parentId : String) : Call Unit := do
  Prog.require (childId ≠ parentId) "a taxon cannot be its own parent"
  let cycle ← Prog.issue (.wouldFormCycle childId parentId)
  Prog.require (!cycle) "adding this parent would create a cycle in the taxonomy DAG"
  Prog.attempt (.insertParent childId parentId)

def linkParents (childId : String) : List String → Call Unit
  | [] => pure ()
  | parentId :: rest => do
    addTaxonParent childId parentId
    linkParents childId rest

def createTaxon (kindSlug label : String) (parentIds : Option (List String)) (id : String)
    (now : Int) : Call Taxon := do
  let taxon ← findOrCreateTaxon kindSlug label id now
  linkParents taxon.row.id (parentIds.getD [])
  return taxon

def removeTaxonParent (childId parentId : String) : Call Unit :=
  Prog.issue (.deleteParent childId parentId)

def deleteTaxon (id : String) (deletedBy : Option String) (now : Int) : Call Unit :=
  Prog.issue (.markDeleted id now deletedBy)

inductive TaxonCall where
  | addTaxonParent (childId parentId : String)
  | removeTaxonParent (childId parentId : String)
  | createTaxon (kindSlug label : String) (parentIds : Option (List String)) (id : String)
      (now : Int)
  | deleteTaxon (id : String) (deletedBy : Option String) (now : Int)

def TaxonCall.prog : TaxonCall → Call Unit
  | .addTaxonParent childId parentId => Taxonomy.addTaxonParent childId parentId
  | .removeTaxonParent childId parentId => Taxonomy.removeTaxonParent childId parentId
  | .createTaxon kindSlug label parentIds id now => do
    let _ ← Taxonomy.createTaxon kindSlug label parentIds id now
  | .deleteTaxon id deletedBy now => Taxonomy.deleteTaxon id deletedBy now

end Tomb.Grimoire.Taxonomy
