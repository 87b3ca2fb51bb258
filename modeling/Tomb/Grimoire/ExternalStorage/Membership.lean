import Mathlib.Data.List.Dedup
import Tomb.Grimoire.ExternalStorage.Database

/-! The index of media by source agrees with the roots and the paths. -/
namespace Tomb.Grimoire.ExternalStorage
open Tomb.Lib

namespace Database

/-- The path of the blob goes on below a root of the source. -/
def Lies (db : Database) (blobId sourceId : String) : Prop :=
  ∃ blob ∈ db.mediaBlobz, ∃ root ∈ db.librarySourcePathz, ∃ path, blob.id = blobId ∧
    root.sourceId = sourceId ∧ blob.localPath = some path ∧ Below root.path.chars path.chars

variable {db : Database}

theorem hasBlob_iff {id : String} :
    db.hasBlob id = true ↔ ∃ blob ∈ db.mediaBlobz, blob.id = id := by
  simp [hasBlob, Table.mem_def]

theorem hasSource_iff {id : String} :
    db.hasSource id = true ↔ ∃ source ∈ db.librarySourcez, source.id = id := by
  simp [hasSource, Table.mem_def]

variable {row : SourceMedia}

theorem mem_view : row ∈ db.librarySourceBlobPathView ↔
      db.Lies row.blobId row.sourceId ∧ db.hasSource row.sourceId = true := by
  rw [librarySourceBlobPathView, List.mem_dedup, List.mem_flatMap]
  constructor
  · rintro ⟨blob, stored, listed⟩
    obtain ⟨root, recorded, matched⟩ := List.mem_filterMap.mp listed
    unfold joined at matched
    split at matched
    · rename_i path placed
      split at matched
      · rename_i both
        obtain ⟨below, known⟩ := Bool.and_eq_true _ _ ▸ both
        cases Option.some.inj matched
        have lies := (liesBelow_iff root.path.noNul path.noNul).mp below
        exact ⟨⟨blob, stored, root, recorded, path, rfl, rfl, placed, lies⟩, known⟩
      · cases matched
    · cases matched
  · rintro ⟨⟨blob, stored, root, recorded, path, sameBlob, sameSource, placed, lies⟩, known⟩
    refine ⟨blob, stored, List.mem_filterMap.mpr ⟨root, recorded, ?_⟩⟩
    have below := (liesBelow_iff root.path.noNul path.noNul).mpr lies
    rw [joined, placed]
    simp only [below, sameSource, known, Bool.and_self, if_true, sameBlob]

theorem hasBlob_of_mem_view
    (listed : row ∈ db.librarySourceBlobPathView) : db.hasBlob row.blobId = true := by
  obtain ⟨⟨blob, stored, _, _, _, same, _⟩, _⟩ := mem_view.mp listed
  exact hasBlob_iff.mpr ⟨blob, stored, same⟩

theorem mem_view_congr {other : Database}
    (blobs : ∀ blob, blob.id = row.blobId → (blob ∈ db.mediaBlobz ↔ blob ∈ other.mediaBlobz))
    (roots : ∀ root, root.sourceId = row.sourceId →
      (root ∈ db.librarySourcePathz ↔ root ∈ other.librarySourcePathz))
    (sources : db.hasSource row.sourceId = other.hasSource row.sourceId) :
    row ∈ db.librarySourceBlobPathView ↔ row ∈ other.librarySourceBlobPathView := by
  rw [mem_view, mem_view, sources]
  refine and_congr_left fun _ => ⟨?_, ?_⟩
  · rintro ⟨blob, stored, root, recorded, path, id, source, rest⟩
    exact ⟨blob, (blobs blob id).mp stored, root, (roots root source).mp recorded, path, id, source,
      rest⟩
  · rintro ⟨blob, stored, root, recorded, path, id, source, rest⟩
    exact ⟨blob, (blobs blob id).mpr stored, root, (roots root source).mpr recorded, path, id,
      source, rest⟩

def Exact (db : Database) : Prop :=
  ∀ row, row ∈ db.librarySourceMediaz ↔ row ∈ db.librarySourceBlobPathView

theorem insertSourceMedia_all (db : Database) (orIgnore : Bool) (rows : List SourceMedia)
    (distinct : rows.Nodup)
    (parents : ∀ row ∈ rows, db.hasBlob row.blobId = true ∧ db.hasSource row.sourceId = true)
    (fresh : orIgnore = true ∨ ∀ row ∈ rows, row ∉ db.librarySourceMediaz) :
    ∃ medias, rows.foldlM (fun db row => db.insertSourceMedia orIgnore row) db =
        some { db with librarySourceMediaz := medias } ∧
      ∀ row, row ∈ medias ↔ row ∈ db.librarySourceMediaz ∨ row ∈ rows := by
  induction rows generalizing db with
  | nil => exact ⟨db.librarySourceMediaz, rfl, fun row => by simp⟩
  | cons first rest ih =>
    obtain ⟨absent, distinct⟩ := List.nodup_cons.mp distinct
    have first_parents := parents first List.mem_cons_self
    have step : ∃ medias, db.insertSourceMedia orIgnore first =
          some { db with librarySourceMediaz := medias } ∧
        ∀ row, row ∈ medias ↔ row ∈ db.librarySourceMediaz ∨ row = first := by
      unfold insertSourceMedia
      rw [first_parents.1, first_parents.2, Bool.and_self, if_pos rfl]
      cases inserted : db.librarySourceMediaz.insert first with
      | some medias =>
        exact ⟨medias, rfl, Table.insert_eq_some _ _ _ inserted⟩
      | none =>
        obtain ⟨old, present, same⟩ := (Table.insert_eq_none _ _).mp inserted
        have taken : first ∈ db.librarySourceMediaz := same ▸ present
        rcases fresh with ignored | fresh
        · refine ⟨db.librarySourceMediaz, if_pos ignored, fun row => ?_⟩
          exact ⟨.inl, fun either => either.elim id fun same => same ▸ taken⟩
        · exact absurd taken (fresh first List.mem_cons_self)
    obtain ⟨medias, inserted, members⟩ := step
    have later := @ih { db with librarySourceMediaz := medias } distinct
      (fun row member => parents row (List.mem_cons_of_mem _ member))
      (fresh.imp_right fun fresh row member known => by
        rcases (members row).mp known with old | same
        · exact fresh row (List.mem_cons_of_mem _ member) old
        · exact absent (same ▸ member))
    obtain ⟨all, done, members'⟩ := later
    refine ⟨all, ?_, fun row => ?_⟩
    · rw [List.foldlM_cons, inserted]
      exact done
    · rw [members' row, members row, List.mem_cons, or_assoc]

theorem insertFromView_spec {db : Database} {orIgnore : Bool} {p : SourceMedia → Bool}
    (fresh : orIgnore = true ∨ ∀ row ∈ db.librarySourceMediaz, p row = false) :
    ∃ medias, db.insertFromView orIgnore p = some { db with librarySourceMediaz := medias } ∧
      ∀ row, row ∈ medias ↔ row ∈ db.librarySourceMediaz ∨
        row ∈ db.librarySourceBlobPathView ∧ p row = true := by
  have all := insertSourceMedia_all db orIgnore
    (db.librarySourceBlobPathView.filter p) ((List.nodup_dedup _).filter p)
    (fun row member => by
      have listed := (List.mem_filter.mp member).1
      exact ⟨hasBlob_of_mem_view listed, (mem_view.mp listed).2⟩)
    (fresh.imp_right fun fresh row member known => by
      have selected := (List.mem_filter.mp member).2
      rw [fresh row known] at selected
      cases selected)
  obtain ⟨medias, done, members⟩ := all
  exact ⟨medias, done, fun row => by rw [members row, List.mem_filter]⟩

theorem extended (db : Database) (p : SourceMedia → Bool)
    (sound : ∀ row ∈ db.librarySourceMediaz, row ∈ db.librarySourceBlobPathView)
    (rest : ∀ row ∈ db.librarySourceBlobPathView, p row = false → row ∈ db.librarySourceMediaz) :
    ∃ medias, db.insertFromView true p = some { db with librarySourceMediaz := medias } ∧
      Exact { db with librarySourceMediaz := medias } := by
  obtain ⟨medias, done, members⟩ := @insertFromView_spec db true p (.inl rfl)
  refine ⟨medias, done, fun row => (members row).trans ?_⟩
  constructor
  · rintro (known | ⟨listed, _⟩)
    · exact sound row known
    · exact listed
  · intro listed
    cases selected : p row with
    | true => exact .inr ⟨listed, rfl⟩
    | false => exact .inl (rest row listed selected)

theorem refreshed (db : Database) (p : SourceMedia → Bool)
    (outside : ∀ row, p row = false →
      (row ∈ db.librarySourceMediaz ↔ row ∈ db.librarySourceBlobPathView)) :
    ∃ medias, (db.deleteSourceMedia p).insertFromView false p =
        some { db with librarySourceMediaz := medias } ∧
      Exact { db with librarySourceMediaz := medias } := by
  have cleared : ∀ row ∈ (db.deleteSourceMedia p).librarySourceMediaz, p row = false :=
    fun row member => ((Table.mem_deleteWhere _ _ _).mp member).2
  obtain ⟨medias, done, members⟩ := insertFromView_spec (.inr cleared)
  refine ⟨medias, done, fun row => (members row).trans ?_⟩
  rw [deleteSourceMedia, Table.mem_deleteWhere]
  constructor
  · rintro (⟨known, left⟩ | ⟨listed, _⟩)
    · exact (outside row left).mp known
    · exact listed
  · intro listed
    cases selected : p row with
    | true => exact .inr ⟨listed, rfl⟩
    | false => exact .inl ⟨(outside row selected).mpr listed, rfl⟩

structure Consistent (db : Database) : Prop where
  exact : Exact db
  owned : ∀ root ∈ db.librarySourcePathz, db.hasSource root.sourceId = true

theorem Consistent.empty : Consistent ∅ where
  exact := fun row => by
    constructor
    · intro known
      exact absurd known (Table.not_mem_empty row)
    · intro listed
      obtain ⟨⟨blob, stored, _⟩, _⟩ := mem_view.mp listed
      exact absurd stored (Table.not_mem_empty blob)
  owned := fun root recorded => absurd recorded (Table.not_mem_empty root)

theorem Consistent.mem_iff (consistent : Consistent db) (blobId sourceId : String) :
    (⟨blobId, sourceId⟩ : SourceMedia) ∈ db.librarySourceMediaz ↔ db.Lies blobId sourceId := by
  rw [consistent.exact, mem_view]
  constructor
  · exact And.left
  · intro lies
    have ⟨_, _, root, recorded, _, _, same, _⟩ := lies
    exact ⟨lies, same ▸ consistent.owned root recorded⟩

/-- A statement is refused for its reason alone, and otherwise leaves a consistent database. -/
inductive Decided (result : Option Database) (reason : Prop) : Prop where
  | refused (why : reason) (none : result = none)
  | done (next : Database) (fine : ¬reason) (some : result = some next) (after : Consistent next)

section Operations

variable {db : Database}

theorem insertBlob_decided (consistent : Consistent db) (blob : MediaBlob) :
    Decided (db.insertBlob blob) (∃ old ∈ db.mediaBlobz, old.id = blob.id) := by
  cases inserted : db.mediaBlobz.insert blob with
  | none =>
    refine .refused ((Table.insert_eq_none _ _).mp inserted) ?_
    rw [insertBlob, inserted]
    rfl
  | some blobs =>
    have stored := Table.insert_eq_some _ _ _ inserted
    have fresh : ¬∃ old ∈ db.mediaBlobz, old.id = blob.id := by
      rw [← Table.insert_eq_none, inserted]
      exact Option.some_ne_none _
    have same (row : SourceMedia) (other : row.blobId ≠ blob.id) :
        row ∈ ({ db with mediaBlobz := blobs } : Database).librarySourceBlobPathView ↔
          row ∈ db.librarySourceBlobPathView := by
      refine mem_view_congr (fun old id => ?_) (fun _ _ => Iff.rfl) rfl
      rw [stored old]
      refine or_iff_left fun new => other ?_
      rw [← id, new]
    have old_rows : ∀ row ∈ db.librarySourceMediaz, row.blobId ≠ blob.id := by
      intro row known same
      obtain ⟨⟨old, stored, _, _, _, id, _⟩, _⟩ := mem_view.mp ((consistent.exact row).mp known)
      exact fresh ⟨old, stored, id.trans same⟩
    obtain ⟨medias, done, exact⟩ := extended { db with mediaBlobz := blobs }
      (·.blobId = blob.id)
      (fun row known => (same row (old_rows row known)).mpr ((consistent.exact row).mp known))
      (fun row listed other =>
        (consistent.exact row).mpr ((same row (of_decide_eq_false other)).mp listed))
    refine .done _ fresh ?_ ⟨exact, consistent.owned⟩
    rw [insertBlob, inserted]
    exact done

theorem updateBlobPath_decided (consistent : Consistent db) (id : String) (localPath : Option Path) :
    Decided (db.updateBlobPath id localPath) False := by
  unfold updateBlobPath
  cases found : db.mediaBlobz.get id with
  | none => exact .done db not_false rfl consistent
  | some old =>
    obtain ⟨known, named⟩ := (Table.get_eq_some _ _ _).mp found
    dsimp only
    set blobs := db.mediaBlobz.update (·.id = id) (fun blob => { blob with localPath }) fun _ => rfl
      with updated
    have stored (blob : MediaBlob) :
        blob ∈ blobs ↔ ∃ before ∈ db.mediaBlobz,
          (if before.id = id then { before with localPath } else before) = blob := by
      rw [updated, Table.mem_update]
      simp only [decide_eq_true_eq]
    have same (row : SourceMedia) (other : row.blobId ≠ id) :
        row ∈ ({ db with mediaBlobz := blobs } : Database).librarySourceBlobPathView ↔
          row ∈ db.librarySourceBlobPathView := by
      refine mem_view_congr (fun blob named => ?_) (fun _ _ => Iff.rfl) rfl
      rw [stored blob]
      constructor
      · rintro ⟨before, present, rfl⟩
        split at named
        · rename_i same
          exact absurd (same ▸ named.symm) other
        · rename_i differs
          rw [if_neg differs]
          exact present
      · intro present
        exact ⟨blob, present, if_neg fun same => other (named.symm.trans same)⟩
    unfold trgLibrarySourceMediaBlobPathUpdate
    split
    · obtain ⟨medias, done, exact⟩ := refreshed { db with mediaBlobz := blobs }
        (·.blobId = id)
        (fun row other => (consistent.exact row).trans (same row (of_decide_eq_false other)).symm)
      rw [named]
      exact .done _ not_false done ⟨exact, consistent.owned⟩
    · rename_i unchanged
      refine .done _ not_false rfl ⟨fun row => (consistent.exact row).trans ?_, consistent.owned⟩
      refine mem_view_congr (fun blob _ => ?_) (fun _ _ => Iff.rfl) rfl
      rw [stored blob]
      have kept (before : MediaBlob) (present : before ∈ db.mediaBlobz) :
          (if before.id = id then { before with localPath } else before) = before := by
        split
        · rename_i same
          have whole : before = old :=
            Table.eq_of_key_eq _ present known (same.trans named.symm)
          have unmoved : old.localPath = localPath := not_not.mp unchanged
          rw [whole, ← unmoved]
        · rfl
      constructor
      · intro present
        exact ⟨blob, present, kept blob present⟩
      · rintro ⟨before, present, rfl⟩
        rw [kept before present]
        exact present

theorem deleteBlob_decided (consistent : Consistent db) (id : String) :
    Decided (some (db.deleteBlob id)) False := by
  refine .done _ not_false rfl ⟨fun row => ?_, consistent.owned⟩
  rw [deleteBlob, deleteSourceMedia, Table.mem_deleteWhere, consistent.exact]
  have others (other : row.blobId ≠ id) : row ∈ db.librarySourceBlobPathView ↔
      row ∈ (db.deleteBlob id).librarySourceBlobPathView := by
    refine mem_view_congr (fun blob named => ?_) (fun _ _ => Iff.rfl) rfl
    rw [deleteBlob, deleteSourceMedia, Table.mem_deleteWhere]
    exact (and_iff_left (decide_eq_false (named ▸ other))).symm
  constructor
  · rintro ⟨listed, other⟩
    exact (others (of_decide_eq_false other)).mp listed
  · intro listed
    have other : row.blobId ≠ id := by
      intro same
      obtain ⟨⟨blob, stored, _, _, _, named, _⟩, _⟩ := mem_view.mp listed
      have left := ((Table.mem_deleteWhere _ _ _).mp stored).2
      exact of_decide_eq_false left (named.trans same)
    exact ⟨(others other).mpr listed, decide_eq_false other⟩

theorem hasSource_insert {sources : Table LibrarySource.id} {source : LibrarySource}
    (inserted : db.librarySourcez.insert source = some sources) (id : String) :
    ({ db with librarySourcez := sources } : Database).hasSource id = true ↔
      db.hasSource id = true ∨ source.id = id := by
  simp only [hasSource_iff, Table.insert_eq_some _ _ _ inserted]
  constructor
  · rintro ⟨other, known | rfl, named⟩
    · exact .inl ⟨other, known, named⟩
    · exact .inr named
  · rintro (⟨other, known, named⟩ | named)
    · exact ⟨other, .inl known, named⟩
    · exact ⟨source, .inr rfl, named⟩

theorem insertSource_decided (consistent : Consistent db) (source : LibrarySource) :
    Decided (db.insertSource source) (∃ other ∈ db.librarySourcez, other.id = source.id ∨
      other.volumeKey = source.volumeKey ∧ other.relativePath = source.relativePath) := by
  unfold insertSource
  split
  · rename_i taken
    obtain ⟨other, known, same⟩ := List.any_eq_true.mp taken
    simp only [Bool.and_eq_true, decide_eq_true_eq] at same
    exact .refused ⟨other, known, .inr same⟩ rfl
  · rename_i free
    cases inserted : db.librarySourcez.insert source with
    | none =>
      obtain ⟨other, known, same⟩ := (Table.insert_eq_none _ _).mp inserted
      exact .refused ⟨other, known, .inl same⟩ rfl
    | some sources =>
      refine .done { db with librarySourcez := sources } ?_ rfl ⟨fun row => ?_, fun root recorded => ?_⟩
      · rintro ⟨other, known, named | same⟩
        · have fresh := (Table.insert_eq_none db.librarySourcez source).mpr ⟨other, known, named⟩
          rw [inserted] at fresh
          cases fresh
        · refine free (List.any_eq_true.mpr ⟨other, known, ?_⟩)
          rw [Bool.and_eq_true, decide_eq_true_eq, decide_eq_true_eq]
          exact same
      · refine (consistent.exact row).trans ?_
        rw [mem_view, mem_view, hasSource_insert inserted]
        constructor
        · rintro ⟨lies, known⟩
          exact ⟨lies, .inl known⟩
        · rintro ⟨lies, _⟩
          have ⟨_, _, root, recorded, _, _, named, _⟩ := lies
          exact ⟨lies, named ▸ consistent.owned root recorded⟩
      · exact (hasSource_insert inserted _).mpr (.inl (consistent.owned root recorded))

theorem insertPath_decided (consistent : Consistent db) (root : SourcePath) :
    Decided (db.insertPath root)
      (root ∈ db.librarySourcePathz ∨ ¬db.hasSource root.sourceId = true) := by
  unfold insertPath
  cases inserted : db.librarySourcePathz.insert root with
  | none =>
    obtain ⟨old, known, same⟩ := (Table.insert_eq_none _ _).mp inserted
    exact .refused (.inl (same ▸ known)) rfl
  | some roots =>
    have recorded := Table.insert_eq_some _ _ _ inserted
    have fresh : root ∉ db.librarySourcePathz := by
      intro known
      have refused := (Table.insert_eq_none db.librarySourcePathz root).mpr ⟨root, known, rfl⟩
      rw [inserted] at refused
      cases refused
    simp only [Option.bind_eq_bind, Option.bind_some]
    split
    · rename_i known
      have same (row : SourceMedia) (other : row.sourceId ≠ root.sourceId) :
          row ∈ ({ db with librarySourcePathz := roots } : Database).librarySourceBlobPathView ↔
            row ∈ db.librarySourceBlobPathView := by
        refine mem_view_congr (fun _ _ => Iff.rfl) (fun old named => ?_) rfl
        rw [recorded old]
        refine or_iff_left fun new => other ?_
        rw [← named, new]
      have grown : ∀ row ∈ db.librarySourceBlobPathView,
          row ∈ ({ db with librarySourcePathz := roots } : Database).librarySourceBlobPathView := by
        intro row listed
        obtain ⟨⟨blob, stored, old, before, rest⟩, source⟩ := mem_view.mp listed
        exact mem_view.mpr ⟨⟨blob, stored, old, (recorded old).mpr (.inl before), rest⟩, source⟩
      obtain ⟨medias, done, exact⟩ := extended { db with librarySourcePathz := roots }
        (·.sourceId = root.sourceId)
        (fun row present => grown row ((consistent.exact row).mp present))
        (fun row listed other =>
          (consistent.exact row).mpr ((same row (of_decide_eq_false other)).mp listed))
      refine .done _ (not_or.mpr ⟨fresh, not_not.mpr known⟩) done ⟨exact, fun other member => ?_⟩
      rcases (recorded other).mp member with old | rfl
      · exact consistent.owned other old
      · exact known
    · rename_i unknown
      exact .refused (.inr unknown) rfl

theorem deletePath_spec (root : SourcePath) (recorded : root ∈ db.librarySourcePathz)
    (others : ∀ row : SourceMedia, row.sourceId ≠ root.sourceId →
      (row ∈ db.librarySourceMediaz ↔ row ∈ db.librarySourceBlobPathView)) :
    ∃ medias, db.deletePath root = some { db with
        librarySourcePathz := db.librarySourcePathz.deleteWhere (· = root)
        librarySourceMediaz := medias } ∧
      Exact { db with
        librarySourcePathz := db.librarySourcePathz.deleteWhere (· = root)
        librarySourceMediaz := medias } := by
  unfold deletePath
  rw [if_pos ((Table.mem_def _ _).mp recorded)]
  refine refreshed _ _ fun row other => (others row (of_decide_eq_false other)).trans ?_
  refine mem_view_congr (fun _ _ => Iff.rfl) (fun old named => ?_) rfl
  rw [Table.mem_deleteWhere]
  refine (and_iff_left (decide_eq_false fun same => ?_)).symm
  exact of_decide_eq_false other (by rw [← named, same])

theorem deletePath_decided (consistent : Consistent db) (root : SourcePath) :
    Decided (db.deletePath root) False := by
  by_cases recorded : root ∈ db.librarySourcePathz
  · obtain ⟨medias, done, exact⟩ := deletePath_spec root recorded fun row _ => consistent.exact row
    exact .done _ not_false done
      ⟨exact, fun other member => consistent.owned other ((Table.mem_deleteWhere _ _ _).mp member).1⟩
  · refine .done db not_false ?_ consistent
    rw [deletePath, if_neg]
    exact recorded

theorem updatePath_decided (consistent : Consistent db) (old new : SourcePath) :
    Decided (db.updatePath old new) (old ∈ db.librarySourcePathz ∧
      (new ∈ db.librarySourcePathz ∧ new ≠ old ∨ ¬db.hasSource new.sourceId = true)) := by
  unfold updatePath
  split
  · rename_i recorded
    have left (root : SourcePath) : root ∈ db.librarySourcePathz.deleteWhere (· = old) ↔
        root ∈ db.librarySourcePathz ∧ root ≠ old := by
      rw [Table.mem_deleteWhere, decide_eq_false_iff_not]
    cases inserted : (db.librarySourcePathz.deleteWhere (· = old)).insert new with
    | none =>
      obtain ⟨other, known, same⟩ := (Table.insert_eq_none _ _).mp inserted
      exact .refused ⟨recorded, .inl ((left new).mp (same ▸ known))⟩ rfl
    | some roots =>
      have members := Table.insert_eq_some _ _ _ inserted
      simp only [Option.bind_eq_bind, Option.bind_some]
      split
      · rename_i known
        obtain ⟨medias, done, exact⟩ := refreshed { db with librarySourcePathz := roots }
          (fun row => row.sourceId = old.sourceId || row.sourceId = new.sourceId)
          (fun row other => by
            simp only [Bool.or_eq_false_iff, decide_eq_false_iff_not] at other
            refine (consistent.exact row).trans ?_
            refine mem_view_congr (fun _ _ => Iff.rfl) (fun root named => ?_) rfl
            rw [members root, left root]
            constructor
            · intro present
              exact .inl ⟨present, fun same => other.1 (by rw [← named, same])⟩
            · rintro (⟨present, _⟩ | same)
              · exact present
              · exact absurd (by rw [← named, same]) other.2)
        refine .done _ ?_ done ⟨exact, fun root member => ?_⟩
        · rintro ⟨_, ⟨taken, differs⟩ | unknown⟩
          · have refused := (Table.insert_eq_none (db.librarySourcePathz.deleteWhere (· = old)) new).mpr
              ⟨new, (left new).mpr ⟨taken, differs⟩, rfl⟩
            rw [inserted] at refused
            cases refused
          · exact unknown known
        · rcases (members root).mp member with before | rfl
          · exact consistent.owned root ((left root).mp before).1
          · exact known
      · rename_i unknown
        exact .refused ⟨recorded, .inr unknown⟩ rfl
  · rename_i absent
    exact .done db (fun both => absent both.1) rfl consistent

/-- The index is right for the sources other than this one. -/
def ExactBeside (db : Database) (id : String) : Prop :=
  ∀ row : SourceMedia, row.sourceId ≠ id →
    (row ∈ db.librarySourceMediaz ↔ row ∈ db.librarySourceBlobPathView)

theorem deletePaths_spec {id : String} {roots : List SourcePath} (distinct : roots.Nodup)
    (recorded : ∀ root ∈ roots, root ∈ db.librarySourcePathz ∧ root.sourceId = id)
    (beside : ExactBeside db id) :
    ∃ paths medias, roots.foldlM (fun db root => db.deletePath root) db =
        some { db with librarySourcePathz := paths, librarySourceMediaz := medias } ∧
      (∀ root, root ∈ paths ↔ root ∈ db.librarySourcePathz ∧ root ∉ roots) ∧
      ExactBeside { db with librarySourcePathz := paths, librarySourceMediaz := medias } id ∧
      (Exact db → Exact { db with librarySourcePathz := paths, librarySourceMediaz := medias }) := by
  induction roots generalizing db with
  | nil =>
    refine ⟨db.librarySourcePathz, db.librarySourceMediaz, rfl, fun root => ?_, beside, fun exact => exact⟩
    exact (and_iff_left List.not_mem_nil).symm
  | cons first rest ih =>
    obtain ⟨absent, distinct⟩ := List.nodup_cons.mp distinct
    obtain ⟨present, named⟩ := recorded first List.mem_cons_self
    obtain ⟨medias, deleted, exact⟩ := deletePath_spec first present (named.symm ▸ beside)
    have left (root : SourcePath) :
        root ∈ db.librarySourcePathz.deleteWhere (· = first) ↔
          root ∈ db.librarySourcePathz ∧ root ≠ first := by
      rw [Table.mem_deleteWhere, decide_eq_false_iff_not]
    have later := @ih { db with
        librarySourcePathz := db.librarySourcePathz.deleteWhere (· = first)
        librarySourceMediaz := medias } distinct
      (fun root member => by
        obtain ⟨present, named⟩ := recorded root (List.mem_cons_of_mem _ member)
        exact ⟨(left root).mpr ⟨present, fun same => absent (same ▸ member)⟩, named⟩)
      (fun row _ => exact row)
    obtain ⟨paths, medias', done, members, beside', exact'⟩ := later
    refine ⟨paths, medias', ?_, fun root => ?_, beside', fun _ => exact' exact⟩
    · rw [List.foldlM_cons, deleted]
      exact done
    · rw [members root, left root, List.mem_cons, not_or, and_assoc]

theorem cascadePaths_spec {id : String} (beside : ExactBeside db id) :
    ∃ paths medias, db.cascadePaths id =
        some { db with librarySourcePathz := paths, librarySourceMediaz := medias } ∧
      (∀ root, root ∈ paths ↔ root ∈ db.librarySourcePathz ∧ root.sourceId ≠ id) ∧
      ExactBeside { db with librarySourcePathz := paths, librarySourceMediaz := medias } id ∧
      (Exact db → Exact { db with librarySourcePathz := paths, librarySourceMediaz := medias }) := by
  have distinct : db.librarySourcePathz.rows.Nodup := by
    have unique := db.librarySourcePathz.unique
    rwa [List.map_id'] at unique
  obtain ⟨paths, medias, done, members, rest⟩ :=
    deletePaths_spec (distinct.filter (·.sourceId = id))
      (fun root member => ⟨(List.mem_filter.mp member).1, by simpa using (List.mem_filter.mp member).2⟩)
      beside
  refine ⟨paths, medias, done, fun root => ?_, rest⟩
  rw [members root, List.mem_filter, decide_eq_true_eq, not_and]
  exact and_congr_right fun recorded => ⟨fun other => other recorded, fun other _ => other⟩

/-- Without the source, its rows may go before its roots or behind them. -/
theorem ExactBeside.exact {id : String} (beside : ExactBeside db id)
    (unknown : db.hasSource id = false) : Exact (db.deleteSourceMedia (·.sourceId = id)) := by
  intro row
  rw [deleteSourceMedia, Table.mem_deleteWhere, decide_eq_false_iff_not]
  constructor
  · rintro ⟨known, other⟩
    exact (beside row other).mp known
  · intro listed
    have other : row.sourceId ≠ id := by
      intro same
      have known := (mem_view.mp listed).2
      rw [same] at known
      cases known.symm.trans unknown
    exact ⟨(beside row other).mpr listed, other⟩

theorem deleteSource_decided (consistent : Consistent db) (id : String) (mediaFirst : Bool) :
    Decided (db.deleteSource id mediaFirst) False := by
  set gone : Database := { db with
    librarySourcez := db.librarySourcez.deleteWhere (·.id = id)
    librarySourceStatez := db.librarySourceStatez.deleteWhere (·.sourceId = id) } with removed
  have unknown : gone.hasSource id = false := by
    rw [Bool.eq_false_iff]
    intro known
    obtain ⟨source, stored, named⟩ := hasSource_iff.mp known
    exact of_decide_eq_false ((Table.mem_deleteWhere _ _ _).mp stored).2 named
  have known (other : String) (differs : other ≠ id) :
      gone.hasSource other = db.hasSource other := by
    rw [Bool.eq_iff_iff, hasSource_iff, hasSource_iff]
    constructor
    · rintro ⟨source, stored, named⟩
      exact ⟨source, ((Table.mem_deleteWhere _ _ _).mp stored).1, named⟩
    · rintro ⟨source, stored, named⟩
      refine ⟨source, (Table.mem_deleteWhere _ _ _).mpr ⟨stored, ?_⟩, named⟩
      exact decide_eq_false fun same => differs (named.symm.trans same)
  have beside : ExactBeside gone id := fun row other =>
    (consistent.exact row).trans
      (mem_view_congr (fun _ _ => Iff.rfl) (fun _ _ => Iff.rfl) (known _ other).symm)
  have owned (paths : Table fun row : SourcePath => row)
      (members : ∀ root, root ∈ paths ↔ root ∈ db.librarySourcePathz ∧ root.sourceId ≠ id) :
      ∀ root ∈ paths, gone.hasSource root.sourceId = true := by
    intro root member
    obtain ⟨recorded, other⟩ := (members root).mp member
    rw [known _ other]
    exact consistent.owned root recorded
  unfold deleteSource
  rw [← removed]
  cases mediaFirst with
  | true =>
    have exact := beside.exact unknown
    obtain ⟨paths, medias, done, members, _, after⟩ := cascadePaths_spec fun row _ => exact row
    exact .done _ not_false done ⟨after exact, owned paths members⟩
  | false =>
    obtain ⟨paths, medias, done, members, after, _⟩ := cascadePaths_spec beside
    refine .done _ not_false ?_ ⟨after.exact unknown, owned paths members⟩
    simp only [Bool.false_eq_true, if_false, done]
    rfl

end Operations

end Database

/-- The statements that change what the view reads; those on states and targets do not. -/
inductive Statement where
  | insertBlob (blob : MediaBlob)
  | updateBlobPath (id : String) (localPath : Option Path)
  | deleteBlob (id : String)
  | insertSource (source : LibrarySource)
  | deleteSource (id : String) (mediaFirst : Bool)
  | insertPath (root : SourcePath)
  | updatePath (old new : SourcePath)
  | deletePath (root : SourcePath)

namespace Statement

open Database

def exec (statement : Statement) (db : Database) : Option Database :=
  match statement with
  | insertBlob blob => db.insertBlob blob
  | updateBlobPath id localPath => db.updateBlobPath id localPath
  | deleteBlob id => some (db.deleteBlob id)
  | insertSource source => db.insertSource source
  | deleteSource id mediaFirst => db.deleteSource id mediaFirst
  | insertPath root => db.insertPath root
  | updatePath old new => db.updatePath old new
  | deletePath root => db.deletePath root

/-- A key of the statement's own row is taken, or its row names no source. -/
def Refused (db : Database) : Statement → Prop
  | insertBlob blob => ∃ old ∈ db.mediaBlobz, old.id = blob.id
  | insertSource source => ∃ other ∈ db.librarySourcez, other.id = source.id ∨
      other.volumeKey = source.volumeKey ∧ other.relativePath = source.relativePath
  | insertPath root => root ∈ db.librarySourcePathz ∨ ¬db.hasSource root.sourceId = true
  | updatePath old new => old ∈ db.librarySourcePathz ∧
      (new ∈ db.librarySourcePathz ∧ new ≠ old ∨ ¬db.hasSource new.sourceId = true)
  | updateBlobPath .. | deleteBlob _ | deleteSource .. | deletePath _ => False

theorem decided {db : Database} (consistent : Consistent db) (statement : Statement) :
    Decided (statement.exec db) (statement.Refused db) := by
  cases statement with
  | insertBlob blob => exact insertBlob_decided consistent blob
  | updateBlobPath id localPath => exact updateBlobPath_decided consistent id localPath
  | deleteBlob id => exact deleteBlob_decided consistent id
  | insertSource source => exact insertSource_decided consistent source
  | deleteSource id mediaFirst => exact deleteSource_decided consistent id mediaFirst
  | insertPath root => exact insertPath_decided consistent root
  | updatePath old new => exact updatePath_decided consistent old new
  | deletePath root => exact deletePath_decided consistent root

end Statement

def Database.run (statements : List Statement) : Database :=
  statements.foldl (fun db statement => (statement.exec db).getD db) ∅

theorem Database.run_consistent (statements : List Statement) : Consistent (run statements) := by
  induction statements using List.reverseRecOn with
  | nil => exact Consistent.empty
  | append_singleton statements last ih =>
    rw [run, List.foldl_append]
    change Consistent ((last.exec (run statements)).getD (run statements))
    cases last.decided ih with
    | refused _ none =>
      rw [none]
      exact ih
    | done next _ some after =>
      rw [some]
      exact after

/-- Whatever statements ran, the index has a blob under a source just when its path lies below a root
recorded for the source, and a statement fails just for a key or a source of its own row. -/
theorem membership_exact (statements : List Statement) :
    (∀ blobId sourceId, (⟨blobId, sourceId⟩ : SourceMedia) ∈ (Database.run statements).librarySourceMediaz ↔
      (Database.run statements).Lies blobId sourceId) ∧
    ∀ statement : Statement, (statement.exec (Database.run statements)).isSome = true ↔
      ¬statement.Refused (Database.run statements) := by
  have consistent := Database.run_consistent statements
  refine ⟨consistent.mem_iff, fun statement => ?_⟩
  cases statement.decided consistent with
  | refused why none =>
    rw [none]
    exact ⟨fun done => absurd done (Bool.false_ne_true), fun fine => absurd why fine⟩
  | done next fine some _ =>
    rw [some]
    exact ⟨fun _ => fine, fun _ => rfl⟩

/-- The path of the blob is a root of the source, or lies below one. -/
def Database.LiesAtOrBelow (db : Database) (blobId sourceId : String) : Prop :=
  db.Lies blobId sourceId ∨ ∃ blob ∈ db.mediaBlobz, ∃ root ∈ db.librarySourcePathz, ∃ path,
    blob.id = blobId ∧ root.sourceId = sourceId ∧ blob.localPath = some path ∧
      spelled path.chars = spelled (directory root.path.chars)

/-- The view asks for a separator behind the root, so a path that is a root has no row. -/
theorem root_itself_not_indexed :
    ¬∀ (statements : List Statement) (blobId sourceId : String),
      ((⟨blobId, sourceId⟩ : SourceMedia) ∈ (Database.run statements).librarySourceMediaz ↔
        (Database.run statements).LiesAtOrBelow blobId sourceId) := by
  intro exact
  let usb : Path := ⟨['/', 'u', 's', 'b'], by decide⟩
  let top : Path := ⟨[], by decide⟩
  let statements : List Statement := [.insertSource ⟨"usb", "key", none, none, none, top, usb, .both⟩,
    .insertPath ⟨"usb", usb⟩, .insertBlob ⟨"blob", some usb⟩]
  have absent : (⟨"blob", "usb"⟩ : SourceMedia) ∉ (Database.run statements).librarySourceMediaz.rows := by
    decide
  have blob : (⟨"blob", some usb⟩ : MediaBlob) ∈ (Database.run statements).mediaBlobz.rows := by
    decide
  have root : (⟨"usb", usb⟩ : SourcePath) ∈ (Database.run statements).librarySourcePathz.rows := by
    decide
  have same : spelled usb.chars = spelled (directory usb.chars) := by decide
  have lies : (Database.run statements).LiesAtOrBelow "blob" "usb" :=
    .inr ⟨⟨"blob", some usb⟩, blob, ⟨"usb", usb⟩, root, usb, rfl, rfl, rfl, same⟩
  exact absent ((exact statements "blob" "usb").mpr lies)

end Tomb.Grimoire.ExternalStorage
