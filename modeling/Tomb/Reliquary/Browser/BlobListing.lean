import Mathlib.Algebra.Order.Ring.Unbundled.Rat
import Tomb.Lib.Pieces
import Tomb.Reliquary.Browser.OpenDb

/-! The pages of the blob store's listing. By size and by time of creation a page is read off an index
of the database, which has no entry for a record without the field; by filename it is cut from all
records, sorted in memory. -/
namespace Tomb.Reliquary.Browser.BlobListing
open Tomb.Lib

/-- What the listing reads of a record. One from an earlier store need not have all of it. -/
structure BlobRecord where
  blobId : String
  filename : Option String
  (size createdAt : Option Rat)
  deriving DecidableEq

inductive SortKey where
  | size | filename | createdAt
  deriving DecidableEq

inductive Direction where
  | asc | desc

namespace SortKey

def index : SortKey → Option String
  | .size => some "size"
  | .createdAt => some "created_at"
  | .filename => none

def field : SortKey → BlobRecord → Option Rat
  | .size => (·.size)
  | .createdAt => (·.createdAt)
  | .filename => fun _ => none

end SortKey

structure ListBlobsOptions where
  sort : SortKey := .createdAt
  direction : Direction := .desc
  search : String := ""
  limit : Nat := 50
  offset : Nat := 0

structure ListBlobsPage where
  items : List BlobRecord
  totalCount : Nat
  totalSize : Rat

/-- A database as `openDb` gives it, with its records in the order of their keys. -/
structure Database where
  stores : OpenDb.Stores
  complete : stores.hasAllIndexes = true
  records : List BlobRecord
  distinct : (records.map (·.blobId)).Nodup

def Database.indexNames (db : Database) : List String := db.stores.blobs.getD []

theorem Database.has_index (db : Database) {name : String} (required : name ∈ OpenDb.blobIndexes) :
    name ∈ db.indexNames := by
  have complete := db.complete
  unfold OpenDb.Stores.hasAllIndexes at complete
  unfold indexNames
  split at complete
  · rename_i blobs refs there others
    have all := (Bool.and_eq_true_iff.mp complete).1
    rw [there]
    exact List.contains_iff_mem.mp (List.all_eq_true.mp all name required)
  · exact Bool.noConfusion complete

def indexed (field : BlobRecord → Option Rat) (records : List BlobRecord) : List BlobRecord :=
  ((records.filterMap fun record => (field record).map (·, record)).mergeSort
    fun a b => a.1 ≤ b.1).map Prod.snd

def collect (found : BlobRecord → Bool) (offset limit : Nat) :
    List BlobRecord → Nat → List BlobRecord → List BlobRecord
  | [], _, items => items
  | record :: rest, skipped, items =>
    if limit ≤ items.length then items
    else if found record then
      if skipped < offset then collect found offset limit rest (skipped + 1) items
      else collect found offset limit rest skipped (items ++ [record])
    else collect found offset limit rest skipped items

section
variable (lower : String → String) (localeCompare : String → String → Ordering)

def lowerName (record : BlobRecord) : String := lower (record.filename.getD "")

def matchesSearch (search : String) (record : BlobRecord) : Bool :=
  search.isEmpty || (lower search).toList <:+: (lowerName lower record).toList

def compareNames : Direction → BlobRecord → BlobRecord → Ordering
  | .asc, a, b => localeCompare (lowerName lower a) (lowerName lower b)
  | .desc, a, b => localeCompare (lowerName lower b) (lowerName lower a)

namespace Database

variable (db : Database) (options : ListBlobsOptions)

def aggregate (search : String) : Nat × Rat :=
  db.records.foldl (fun total record =>
    if matchesSearch lower search record then (total.1 + 1, total.2 + record.size.getD 0)
    else total) (0, 0)

def useIndex (sort : SortKey) : Bool := sort.index.any (· ∈ db.indexNames)

def cursor (sort : SortKey) : Direction → List BlobRecord
  | .asc => indexed sort.field db.records
  | .desc => (indexed sort.field db.records).reverse

def collectPage : List BlobRecord :=
  if db.useIndex options.sort then
    collect (matchesSearch lower options.search) options.offset options.limit
      (db.cursor options.sort options.direction) 0 []
  else
    let all := db.records.filter (matchesSearch lower options.search)
    let sorted := all.mergeSort fun a b =>
      (compareNames lower localeCompare options.direction a b).isLE
    (sorted.drop options.offset).take options.limit

def listBlobs : ListBlobsPage where
  items := db.collectPage lower localeCompare options
  totalCount := (db.aggregate lower options.search).1
  totalSize := (db.aggregate lower options.search).2

def page (n : Nat) : ListBlobsPage :=
  db.listBlobs lower localeCompare { options with offset := n * options.limit }

def pages (n : Nat) : List BlobRecord :=
  (List.range n).flatMap fun i => (db.page lower localeCompare options i).items

end Database

def ListBlobsOptions.before (options : ListBlobsOptions) (a b : BlobRecord) : Prop :=
  match options.sort, options.direction with
  | .filename, direction => (compareNames lower localeCompare direction a b).isLE = true
  | sort, .asc => ∀ x ∈ sort.field a, ∀ y ∈ sort.field b, x ≤ y
  | sort, .desc => ∀ x ∈ sort.field a, ∀ y ∈ sort.field b, y ≤ x

/-- The pages up to the first empty one have every record that is looked for once, in the order, as
many as are reported, and the same ones as by filename. -/
structure Partitions (db : Database) (options : ListBlobsOptions) : Prop where
  ends : ∃ n, (db.page lower localeCompare options n).items = []
  once : ∀ n, (db.page lower localeCompare options n).items = [] →
    ((db.pages lower localeCompare options n).map (·.blobId)).Nodup ∧
      ∀ record, record ∈ db.pages lower localeCompare options n ↔
        record ∈ db.records ∧ matchesSearch lower options.search record = true
  in_order : ∀ n, (db.page lower localeCompare options n).items = [] →
    (db.pages lower localeCompare options n).Pairwise (options.before lower localeCompare)
  counted : ∀ n, (db.page lower localeCompare options n).items = [] →
    (db.pages lower localeCompare options n).length =
      (db.page lower localeCompare options n).totalCount
  same : ∀ n m, (db.page lower localeCompare options n).items = [] →
    (db.page lower localeCompare { options with sort := .filename } m).items = [] →
    ∀ record, record ∈ db.pages lower localeCompare options n ↔
      record ∈ db.pages lower localeCompare { options with sort := .filename } m

end

/-! The cursor and the sorting in memory cut pages from a list. -/

theorem collect_eq (found : BlobRecord → Bool) (offset limit : Nat) (rest : List BlobRecord)
    (skipped : Nat) (items : List BlobRecord) :
    collect found offset limit rest skipped items =
      items ++ ((rest.filter found).drop (offset - skipped)).take (limit - items.length) := by
  induction rest generalizing skipped items with
  | nil => simp [collect]
  | cons record rest ih =>
    unfold collect
    split
    · rename_i full
      rw [Nat.sub_eq_zero_of_le full, List.take_zero, List.append_nil]
    · rename_i room
      split
      · rename_i match_
        rw [List.filter_cons_of_pos match_]
        split
        · rename_i skip
          rw [ih, show offset - skipped = offset - (skipped + 1) + 1 by omega, List.drop_succ_cons]
        · rename_i done
          rw [ih, Nat.sub_eq_zero_of_le (Nat.le_of_not_lt done), List.drop_zero, List.drop_zero,
            show limit - items.length = limit - (items ++ [record]).length + 1 by
              rw [List.length_append, List.length_singleton]; omega,
            List.take_succ_cons, List.append_assoc, List.singleton_append]
      · rename_i other
        rw [ih, List.filter_cons_of_neg other]

theorem indexed_perm (field : BlobRecord → Option Rat) (records : List BlobRecord) :
    (indexed field records).Perm (records.filter fun record => (field record).isSome) := by
  refine ((List.mergeSort_perm _ _).map Prod.snd).trans (.of_eq ?_)
  induction records with
  | nil => rfl
  | cons record records ih =>
    cases has : field record with
    | none => simpa [has] using ih
    | some value => simpa [has] using ih

theorem indexed_ordered (field : BlobRecord → Option Rat) (records : List BlobRecord) :
    (indexed field records).Pairwise fun a b => ∀ x ∈ field a, ∀ y ∈ field b, x ≤ y := by
  have sorted : ((records.filterMap fun record => (field record).map (·, record)).mergeSort
      fun a b => a.1 ≤ b.1).Pairwise fun a b => decide (a.1 ≤ b.1) :=
    List.pairwise_mergeSort (fun a b c => by simpa using le_trans)
      (fun a b => by simpa using le_total a.1 b.1) _
  refine List.pairwise_map.mpr (sorted.imp_of_mem fun {a b} first second le => ?_)
  have own : ∀ entry : Rat × BlobRecord, entry ∈ (records.filterMap fun record =>
      (field record).map (·, record)).mergeSort (fun a b => a.1 ≤ b.1) →
      field entry.2 = some entry.1 := by
    intro entry member
    obtain ⟨record, -, has⟩ := List.mem_filterMap.mp (List.mem_mergeSort.mp member)
    obtain ⟨value, holds, rfl⟩ := Option.map_eq_some_iff.mp has
    exact holds
  rw [own a first, own b second]
  intro x holds y other
  obtain rfl := Option.some.inj holds
  obtain rfl := Option.some.inj other
  exact of_decide_eq_true le

section
variable (lower : String → String) (localeCompare : String → String → Ordering)

namespace Database

variable (db : Database) (options : ListBlobsOptions)

@[grind =] def listing : List BlobRecord :=
  if db.useIndex options.sort then
    (db.cursor options.sort options.direction).filter (matchesSearch lower options.search)
  else
    (db.records.filter (matchesSearch lower options.search)).mergeSort fun a b =>
      (compareNames lower localeCompare options.direction a b).isLE

theorem useIndex_eq (sort : SortKey) : db.useIndex sort = !(sort = .filename : Bool) := by
  cases sort with
  | size => exact decide_eq_true (db.has_index (by decide))
  | createdAt => exact decide_eq_true (db.has_index (by decide))
  | filename => rfl

theorem page_items (n : Nat) : (db.page lower localeCompare options n).items =
    ((db.listing lower localeCompare options).drop (n * options.limit)).take options.limit := by
  unfold page listBlobs collectPage listing
  split
  · rw [collect_eq]
    rfl
  · rfl

theorem pages_eq (n : Nat) : db.pages lower localeCompare options n =
    (db.listing lower localeCompare options).take (n * options.limit) := by
  simp only [pages, page_items]
  exact flatMap_pages _ _ _

theorem aggregate_fst (search : String) : (db.aggregate lower search).1 =
    (db.records.filter (matchesSearch lower search)).length := by
  have fold : ∀ (records : List BlobRecord) (total : Nat × Rat),
      (records.foldl (fun total record =>
        if matchesSearch lower search record then (total.1 + 1, total.2 + record.size.getD 0)
        else total) total).1 = total.1 + (records.filter (matchesSearch lower search)).length := by
    intro records
    induction records with
    | nil => exact fun _ => rfl
    | cons record records ih =>
      intro total
      rw [List.foldl_cons, ih, List.filter_cons]
      split
      · rw [List.length_cons]
        omega
      · rfl
  rw [aggregate, fold, Nat.zero_add]

variable {db options}

theorem listing_perm_of_index (sort : options.sort ≠ .filename) :
    (db.listing lower localeCompare options).Perm ((db.records.filter fun record =>
      (options.sort.field record).isSome).filter (matchesSearch lower options.search)) := by
  rw [listing, useIndex_eq, decide_eq_false sort, Bool.not_false, if_pos rfl]
  refine List.Perm.filter _ ?_
  have perm := indexed_perm options.sort.field db.records
  cases options.direction with
  | asc => exact perm
  | desc => exact (List.reverse_perm _).trans perm

theorem listing_perm (whole : options.sort = .filename ∨ ∀ record ∈ db.records,
      matchesSearch lower options.search record = true → (options.sort.field record).isSome = true) :
    (db.listing lower localeCompare options).Perm
      (db.records.filter (matchesSearch lower options.search)) := by
  by_cases sort : options.sort = .filename
  · rw [listing, useIndex_eq, decide_eq_true sort, Bool.not_true, if_neg Bool.false_ne_true]
    exact List.mergeSort_perm _ _
  · refine (listing_perm_of_index lower localeCompare sort).trans (.of_eq ?_)
    rw [List.filter_filter]
    refine List.filter_congr fun record member => ?_
    cases wanted : matchesSearch lower options.search record with
    | false => rfl
    | true => exact whole.resolve_left sort record member wanted

theorem cursor_ordered {sort : SortKey} (direction : Direction) (key : sort ≠ .filename) :
    (db.cursor sort direction).Pairwise
      (({ sort, direction } : ListBlobsOptions).before lower localeCompare) := by
  have ordered := indexed_ordered sort.field db.records
  cases sort with
  | filename => exact absurd rfl key
  | size | createdAt =>
    cases direction with
    | asc => exact ordered
    | desc =>
      refine List.pairwise_reverse.mpr (ordered.imp fun {a b} le x first y second => ?_)
      exact le y second x first

theorem compareNames_trans [Std.TransCmp localeCompare] (direction : Direction)
    (a b c : BlobRecord) (first : (compareNames lower localeCompare direction a b).isLE = true)
    (second : (compareNames lower localeCompare direction b c).isLE = true) :
    (compareNames lower localeCompare direction a c).isLE = true := by
  have trans : ∀ x y z, (localeCompare x y).isLE = true → (localeCompare y z).isLE = true →
      (localeCompare x z).isLE = true := fun _ _ _ => Std.TransCmp.isLE_trans
  cases direction with
  | asc => exact trans _ _ _ first second
  | desc => exact trans _ _ _ second first

theorem compareNames_total [Std.TransCmp localeCompare] (direction : Direction)
    (a b : BlobRecord) : ((compareNames lower localeCompare direction a b).isLE ||
      (compareNames lower localeCompare direction b a).isLE) = true := by
  have swaps : ∀ x y, localeCompare x y = (localeCompare y x).swap :=
    fun _ _ => Std.OrientedCmp.eq_swap
  have swap : compareNames lower localeCompare direction b a =
      (compareNames lower localeCompare direction a b).swap := by
    cases direction <;> exact swaps _ _
  rw [swap]
  cases compareNames lower localeCompare direction a b <;> rfl

theorem listing_ordered [Std.TransCmp localeCompare] :
    (db.listing lower localeCompare options).Pairwise (options.before lower localeCompare) := by
  by_cases sort : options.sort = .filename
  · rw [listing, useIndex_eq, decide_eq_true sort, Bool.not_true, if_neg Bool.false_ne_true]
    have before : options.before lower localeCompare = fun a b =>
        (compareNames lower localeCompare options.direction a b).isLE = true := by
      unfold ListBlobsOptions.before
      rw [sort]
    rw [before]
    exact List.pairwise_mergeSort (compareNames_trans lower localeCompare _)
      (compareNames_total lower localeCompare _) _
  · rw [listing, useIndex_eq, decide_eq_false sort, Bool.not_false, if_pos rfl]
    exact (cursor_ordered lower localeCompare options.direction sort).filter _

theorem pages_of_last {n : Nat}
    (room : 0 < options.limit ∨ db.listing lower localeCompare options = [])
    (last : (db.page lower localeCompare options n).items = []) :
    db.pages lower localeCompare options n = db.listing lower localeCompare options := by
  rw [page_items] at last
  rw [pages_eq]
  rcases room with some | none
  · exact take_of_page_eq_nil some last
  · rw [none, List.take_nil]

theorem page_at_end : (db.page lower localeCompare options
    (db.listing lower localeCompare options).length).items = [] := by
  rw [page_items]
  by_cases none : options.limit = 0
  · rw [none, List.take_zero]
  · rw [List.drop_eq_nil_of_le (Nat.le_mul_of_pos_right _ (by omega)), List.take_nil]

variable {lower localeCompare}

theorem room_or_empty (perm : (db.listing lower localeCompare options).Perm
      (db.records.filter (matchesSearch lower options.search)))
    (room : 0 < options.limit ∨
      ∀ record ∈ db.records, matchesSearch lower options.search record = false) :
    0 < options.limit ∨ db.listing lower localeCompare options = [] := by
  refine room.imp_right fun none => (perm.trans (.of_eq ?_)).eq_nil
  exact List.filter_eq_nil_iff.mpr fun record member => by rw [none record member]; decide

end Database

variable {lower localeCompare}

theorem Partitions.of_perm [Std.TransCmp localeCompare] {db : Database}
    {options : ListBlobsOptions}
    (room : 0 < options.limit ∨
      ∀ record ∈ db.records, matchesSearch lower options.search record = false)
    (perm : (db.listing lower localeCompare options).Perm
      (db.records.filter (matchesSearch lower options.search))) :
    Partitions lower localeCompare db options := by
  have all : ∀ {n}, (db.page lower localeCompare options n).items = [] →
      db.pages lower localeCompare options n = db.listing lower localeCompare options :=
    fun last => db.pages_of_last lower localeCompare (db.room_or_empty perm room) last
  have named : (db.listing lower localeCompare { options with sort := .filename }).Perm
      (db.records.filter (matchesSearch lower options.search)) :=
    db.listing_perm lower localeCompare (.inl rfl)
  constructor
  · exact ⟨_, db.page_at_end lower localeCompare⟩
  · intro n last
    rw [all last]
    refine ⟨(perm.map _).nodup_iff.mpr ?_, fun record => perm.mem_iff.trans List.mem_filter⟩
    exact db.distinct.sublist (List.filter_sublist.map _)
  · intro n last
    rw [all last]
    exact db.listing_ordered lower localeCompare
  · intro n last
    rw [all last, perm.length_eq]
    exact (db.aggregate_fst lower options.search).symm
  · intro n m last other record
    rw [all last, db.pages_of_last lower localeCompare (db.room_or_empty named room) other,
      perm.mem_iff, named.mem_iff]

/-- The pages partition the records that are looked for exactly when a page has room and each of them
has the field that they are sorted by, where that is not the filename. -/
theorem partitions_iff [Std.TransCmp localeCompare] (db : Database) (options : ListBlobsOptions) :
    Partitions lower localeCompare db options ↔
      (0 < options.limit ∨
        ∀ record ∈ db.records, matchesSearch lower options.search record = false) ∧
      (options.sort = .filename ∨ ∀ record ∈ db.records,
        matchesSearch lower options.search record = true →
          (options.sort.field record).isSome = true) := by
  constructor
  · intro parts
    obtain ⟨n, last⟩ := parts.ends
    have all := (parts.once n last).2
    rw [db.pages_eq] at all
    refine ⟨?_, ?_⟩
    · by_cases none : options.limit = 0
      · rw [none, Nat.mul_zero, List.take_zero] at all
        refine .inr fun record member => Bool.eq_false_iff.mpr fun wanted => ?_
        exact List.not_mem_nil ((all record).mpr ⟨member, wanted⟩)
      · exact .inl (by omega)
    · by_cases sort : options.sort = .filename
      · exact .inl sort
      · refine .inr fun record member wanted => ?_
        have listed := List.mem_of_mem_take ((all record).mpr ⟨member, wanted⟩)
        have perm := db.listing_perm_of_index lower localeCompare sort
        have has := (List.mem_filter.mp (perm.mem_iff.mp listed)).1
        exact (List.mem_filter.mp has).2
  · rintro ⟨room, whole⟩
    exact .of_perm room (db.listing_perm lower localeCompare whole)

def earlierStore : Database where
  stores := ⟨some OpenDb.blobIndexes, some OpenDb.refsIndexes⟩
  complete := by decide
  records := [⟨"a", some "cover.png", some 7, some 1⟩, ⟨"b", some "song.flac", none, some 2⟩]
  distinct := by decide

theorem earlierStore_by_time : Partitions id compare earlierStore { limit := 1 } :=
  (partitions_iff earlierStore { limit := 1 }).mpr ⟨.inl (by decide), .inr (by decide)⟩

theorem earlierStore_by_size : ¬Partitions id compare earlierStore { sort := .size } := by
  intro parts
  have listed := (parts.once 1 (by decide +kernel)).2 ⟨"b", some "song.flac", none, some 2⟩
  have member := listed.mpr ⟨by decide, by decide⟩
  revert member
  decide +kernel

end

end Tomb.Reliquary.Browser.BlobListing
