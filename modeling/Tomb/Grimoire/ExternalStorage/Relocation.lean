import Tomb.Lib.Runs
import Tomb.Grimoire.ExternalStorage.Availability
import Tomb.Grimoire.ExternalStorage.Membership

/-! Where the media of a source are while volumes come, go and mount elsewhere. -/
namespace Tomb.Grimoire.ExternalStorage
open Tomb.Lib

def separator (windows : Bool) : Char := if windows then '\\' else '/'

def base (windows : Bool) (root : Path) : List Char := (Database.trimmedPath windows root).chars

/-- A root as the host gives it: of its platform, with at most its separator at the end, which a drive
or the top ends with. -/
structure Root (windows : Bool) where
  path : Path
  platform : decide (path.chars.head? ≠ some '/') = windows
  shape : path.chars = base windows path ∨ path.chars = base windows path ++ [separator windows]
  plain : windows = true → '/' ∉ path.chars

def under (windows : Bool) (root rest : Path) : Path where
  chars := base windows root ++ separator windows :: rest.chars
  noNul member := by
    rcases List.mem_append.mp member with member | member
    · exact (Database.trimmedPath windows root).noNul member
    · rcases List.mem_cons.mp member with same | member
      · unfold separator at same
        split at same <;> cases same
      · exact rest.noNul member

theorem noNul_base (windows : Bool) (root : Path) : '\x00' ∉ base windows root :=
  (Database.trimmedPath windows root).noNul

def overlap (windows : Bool) (a b : Path) : Bool :=
  (base windows a ++ [separator windows]).isPrefixOf (base windows b ++ [separator windows]) ||
    (base windows b ++ [separator windows]).isPrefixOf (base windows a ++ [separator windows])

section Texts

variable {windows : Bool}

theorem not_overlap_iff {a b : Path} : overlap windows a b = false ↔
    ¬base windows a ++ [separator windows] <+: base windows b ++ [separator windows] ∧
    ¬base windows b ++ [separator windows] <+: base windows a ++ [separator windows] := by
  rw [overlap, Bool.or_eq_false_iff, Bool.eq_false_iff, Bool.eq_false_iff, ne_eq, ne_eq,
    List.isPrefixOf_iff_prefix, List.isPrefixOf_iff_prefix]

theorem overlap_comm (a b : Path) : overlap windows a b = overlap windows b a :=
  Bool.or_comm _ _

theorem under_begins (windows : Bool) (root rest : Path) :
    base windows root ++ [separator windows] <+: (under windows root rest).chars :=
  ⟨rest.chars, by rw [under, List.append_assoc, List.singleton_append]⟩

theorem Root.below (root : Root windows) (rest : Path) :
    Below root.path.chars (under windows root.path rest).chars := by
  refine ⟨base windows root.path, separator windows, rest.chars, isSeparator_iff.mpr ?_, rfl, root.shape⟩
  have platform := root.platform
  cases windows with
  | false => exact .inl rfl
  | true => exact .inr ⟨of_decide_eq_true platform, rfl⟩

theorem Root.base_plain (root : Root windows) (on : windows = true) : '/' ∉ base windows root.path :=
  fun member => root.plain on ((List.rdropWhile_prefix _ _).subset member)

theorem not_selected {old other : Root windows} (apart : overlap windows old.path other.path = false)
    (rest : Path) :
    (under windows other.path rest).chars ≠ base windows old.path ∧
    ¬base windows old.path ++ ['/'] <+: (under windows other.path rest).chars ∧
    (windows = true → ¬base windows old.path ++ ['\\'] <+: (under windows other.path rest).chars) := by
  obtain ⟨notBelow, notAbove⟩ := not_overlap_iff.mp apart
  have start := under_begins windows other.path rest
  have not_separated : ¬base windows old.path ++ [separator windows] <+:
      (under windows other.path rest).chars := by
    intro begins
    rcases List.prefix_or_prefix_of_prefix begins start with below | above
    · exact notBelow below
    · exact notAbove above
  refine ⟨?_, ?_, ?_⟩
  · intro same
    exact notAbove ((same ▸ start).trans (List.prefix_append _ _))
  · intro begins
    by_cases on : windows = true
    · have sep : separator windows = '\\' := if_pos on
      rw [sep] at start notAbove
      rcases List.prefix_or_prefix_of_prefix begins start with below | above
      · rcases List.prefix_concat_iff.mp below with whole | inside
        · have last := congrArg List.getLast? whole
          rw [List.getLast?_concat, List.getLast?_concat] at last
          cases Option.some.inj last
        · exact other.base_plain on (inside.subset (List.mem_append_right _ List.mem_cons_self))
      · rcases List.prefix_concat_iff.mp above with whole | inside
        · have last := congrArg List.getLast? whole
          rw [List.getLast?_concat, List.getLast?_concat] at last
          cases Option.some.inj last
        · exact notAbove (inside.trans (List.prefix_append _ _))
    · have sep : separator windows = '/' := if_neg on
      rw [sep] at not_separated
      exact not_separated begins
  · intro on begins
    have sep : separator windows = '\\' := if_pos on
    rw [sep] at not_separated
    exact not_separated begins

end Texts

namespace Database

variable {db next : Database}

theorem updateBlobPath_get {id : String} {localPath : Option Path}
    (done : db.updateBlobPath id localPath = some next) (other : String) :
    next.mediaBlobz.get other = (db.mediaBlobz.get other).map fun blob =>
      if blob.id = id then { blob with localPath } else blob := by
  unfold updateBlobPath at done
  split at done
  · rename_i absent
    cases Option.some.inj done
    cases found : db.mediaBlobz.get other with
    | none => rfl
    | some blob =>
      have present := ((Table.get_eq_some _ _ _).mp found).1
      rw [Option.map_some, if_neg ((Table.get_eq_none _ _).mp absent blob present)]
  · have written (blobs : Table MediaBlob.id) {old new : MediaBlob}
        (done : ({ db with mediaBlobz := blobs } : Database).trgLibrarySourceMediaBlobPathUpdate old new =
          some next) : next.mediaBlobz = blobs := by
      unfold trgLibrarySourceMediaBlobPathUpdate at done
      split at done
      · obtain ⟨medias, rfl⟩ := insertFromView_eq done
        rfl
      · exact (Option.some.inj done) ▸ rfl
    rw [written _ done, Table.get_update]
    simp only [decide_eq_true_eq]

def movedBlob (old new : Path) (blob : MediaBlob) : MediaBlob :=
  { blob with localPath := blob.localPath.map (relocated old new) }

theorem updateBlobPaths_get {old new : Path} {rows : List MediaBlob}
    (distinct : (rows.map MediaBlob.id).Nodup)
    (stored : ∀ row ∈ rows, db.mediaBlobz.get row.id = some row)
    (done : rows.foldlM (fun db blob =>
      db.updateBlobPath blob.id (blob.localPath.map (relocated old new))) db = some next)
    (id : String) : next.mediaBlobz.get id = (db.mediaBlobz.get id).map fun blob =>
      if blob ∈ rows then movedBlob old new blob else blob := by
  induction rows generalizing db with
  | nil =>
    cases Option.some.inj done
    simp
  | cons first rest ih =>
    obtain ⟨absent, distinct⟩ := List.nodup_cons.mp distinct
    rw [List.foldlM_cons] at done
    obtain ⟨between, now, later⟩ := Option.bind_eq_some_iff.mp done
    have written := updateBlobPath_get now
    have apart (row : MediaBlob) (listed : row ∈ rest) : row.id ≠ first.id := fun same =>
      absent (same ▸ List.mem_map_of_mem listed)
    have kept : ∀ row ∈ rest, between.mediaBlobz.get row.id = some row := by
      intro row listed
      rw [written, stored row (List.mem_cons_of_mem _ listed), Option.map_some, if_neg (apart row listed)]
    rw [ih distinct kept later, written]
    cases found : db.mediaBlobz.get id with
    | none => rfl
    | some blob =>
      have named := ((Table.get_eq_some _ _ _).mp found).2
      simp only [Option.map_some, Option.some.injEq]
      by_cases same : blob.id = first.id
      · have whole : blob = first := by
          have here := stored first List.mem_cons_self
          rw [← same, named, found] at here
          exact Option.some.inj here
        have gone : (⟨blob.id, first.localPath.map (relocated old new)⟩ : MediaBlob) ∉ rest :=
          fun listed => apart _ listed same
        rw [if_pos same, if_neg gone, if_pos (whole ▸ List.mem_cons_self), whole]
        rfl
      · have other : blob ≠ first := fun whole => same (whole ▸ rfl)
        rw [if_neg same]
        simp only [List.mem_cons, other, false_or]

theorem updateBlobPaths_consistent {old new : Path} {rows : List MediaBlob}
    (consistent : Consistent db)
    (done : rows.foldlM (fun db blob =>
      db.updateBlobPath blob.id (blob.localPath.map (relocated old new))) db = some next) :
    Consistent next := by
  induction rows generalizing db with
  | nil =>
    cases Option.some.inj done
    exact consistent
  | cons first rest ih =>
    rw [List.foldlM_cons] at done
    obtain ⟨between, now, later⟩ := Option.bind_eq_some_iff.mp done
    refine ih ?_ later
    cases updateBlobPath_decided consistent first.id (first.localPath.map (relocated old new)) with
    | refused why _ => exact absurd why not_false
    | done result _ some after =>
      rw [now] at some
      cases Option.some.inj some
      exact after

theorem relocateBlobs_spec {sourceId : String} {windows : Bool} {old new : Path}
    (consistent : Consistent db)
    (done : db.relocateBlobs sourceId windows old new = some next) :
    Consistent next ∧ next.librarySourcez = db.librarySourcez ∧
      next.librarySourcePathz = db.librarySourcePathz ∧
      ∀ id, next.mediaBlobz.get id = (db.mediaBlobz.get id).map fun blob =>
        if db.relocates sourceId windows old.chars blob = true then movedBlob old new blob else blob := by
  obtain ⟨_, _, same⟩ := relocateBlobs_eq done
  have sources : next.librarySourcez = db.librarySourcez := by rw [same]
  have roots : next.librarySourcePathz = db.librarySourcePathz := by rw [same]
  refine ⟨updateBlobPaths_consistent consistent done, sources, roots, fun id => ?_⟩
  have distinct : ((db.mediaBlobz.rows.filter (db.relocates sourceId windows old.chars)).map
      MediaBlob.id).Nodup := db.mediaBlobz.unique.sublist (List.filter_sublist.map _)
  rw [updateBlobPaths_get distinct (fun row listed =>
    (Table.get_eq_some _ _ _).mpr ⟨(List.mem_filter.mp listed).1, rfl⟩) done]
  cases found : db.mediaBlobz.get id with
  | none => rfl
  | some blob =>
    have present : blob ∈ db.mediaBlobz.rows := ((Table.get_eq_some _ _ _).mp found).1
    simp only [Option.map_some, List.mem_filter, present, true_and]

theorem insertPathOrIgnore_spec {row : SourcePath} (consistent : Consistent db)
    (done : db.insertPathOrIgnore row = some next) :
    Consistent next ∧ next.mediaBlobz = db.mediaBlobz ∧ next.librarySourcez = db.librarySourcez ∧
      ∀ root, root ∈ next.librarySourcePathz ↔ root ∈ db.librarySourcePathz ∨ root = row := by
  unfold insertPathOrIgnore at done
  split at done
  · rename_i recorded
    cases Option.some.inj done
    refine ⟨consistent, rfl, rfl, fun root => ⟨.inl, ?_⟩⟩
    rintro (known | rfl)
    · exact known
    · exact recorded
  · have after : Consistent next := by
      cases insertPath_decided consistent row with
      | refused _ none =>
        rw [none] at done
        cases done
      | done result _ some after =>
        rw [done] at some
        cases Option.some.inj some
        exact after
    obtain ⟨paths, inserted, done⟩ := Option.bind_eq_some_iff.mp done
    dsimp only at done
    split at done
    · obtain ⟨medias, rfl⟩ := insertFromView_eq done
      exact ⟨after, rfl, rfl, Table.insert_eq_some _ _ _ inserted⟩
    · cases done

theorem Consistent.setLastKnownPath (consistent : Consistent db) (id : String) (root : Path) :
    Consistent (db.setLastKnownPath id root) := by
  have known (other : String) : (db.setLastKnownPath id root).hasSource other = db.hasSource other := by
    rw [Bool.eq_iff_iff, hasSource_iff, hasSource_iff]
    simp only [Database.setLastKnownPath, Table.mem_update]
    constructor
    · rintro ⟨_, ⟨source, present, rfl⟩, named⟩
      refine ⟨source, present, ?_⟩
      split at named <;> exact named
    · rintro ⟨source, present, named⟩
      refine ⟨_, ⟨source, present, rfl⟩, ?_⟩
      split <;> exact named
  refine ⟨fun row => (consistent.exact row).trans ?_, fun at_root recorded => ?_⟩
  · exact mem_view_congr (fun _ _ => Iff.rfl) (fun _ _ => Iff.rfl) (known row.sourceId).symm
  · rw [known]
    exact consistent.owned at_root recorded

def registerSource (db : Database) (source : LibrarySource) : Option Database := do
  let db ← db.insertSource source
  db.insertPathOrIgnore ⟨source.id, source.lastKnownPath⟩

end Database

structure RecordedFile where
  (blobId sourceId : String)
  rest : Path

structure Ledger where
  storage : Storage
  files : List RecordedFile

def inPlace (windows : Bool) (db : Database) (file : RecordedFile) : Bool :=
  match db.librarySourcez.get file.sourceId, db.mediaBlobz.get file.blobId with
  | some source, some blob => blob.localPath = some (under windows source.lastKnownPath file.rest)
  | _, _ => false

/-- The index is exact, every root is the host's and recorded, no two overlap, and the files are at
theirs. -/
structure Settled (windows : Bool) (db : Database) (files : List RecordedFile) : Prop where
  consistent : Database.Consistent db
  rooted : ∀ source ∈ db.librarySourcez, ∃ root : Root windows, source.lastKnownPath = root.path ∧
    (⟨source.id, root.path⟩ : SourcePath) ∈ db.librarySourcePathz
  apart : ∀ a ∈ db.librarySourcez, ∀ b ∈ db.librarySourcez, a.id ≠ b.id →
    overlap windows a.lastKnownPath b.lastKnownPath = false
  placed : ∀ file ∈ files, inPlace windows db file = true

section Relocation

variable {windows : Bool} {db next : Database} {files : List RecordedFile}

theorem inPlace_iff {file : RecordedFile} : inPlace windows db file = true ↔
    ∃ source blob, db.librarySourcez.get file.sourceId = some source ∧
      db.mediaBlobz.get file.blobId = some blob ∧
      blob.localPath = some (under windows source.lastKnownPath file.rest) := by
  unfold inPlace
  split
  · rename_i source blob known stored
    simp [known, stored]
  · rename_i missing
    constructor
    · intro impossible
      cases impossible
    · rintro ⟨source, blob, known, stored, _⟩
      exact absurd stored (missing source blob known)

theorem relocated_under (old new : Root windows) (rest : Path) :
    Database.relocated (Database.trimmedPath windows old.path) (Database.trimmedPath windows new.path)
      (under windows old.path rest) = under windows new.path rest := by
  apply MediaBlobz.Path.ext
  have noNul := (under windows old.path rest).noNul
  have noNul' := noNul_base windows old.path
  change base windows new.path ++ Sqlite.substrFrom (under windows old.path rest).chars
    (Sqlite.length (base windows old.path) + 1) = base windows new.path ++ separator windows :: rest.chars
  rw [Sqlite.substrFrom, Sqlite.upToNul_eq noNul, Sqlite.length, Sqlite.upToNul_eq noNul',
    Nat.add_sub_cancel]
  exact congrArg (base windows new.path ++ ·) List.drop_left

variable {source : LibrarySource} {blob : MediaBlob}

theorem relocates_iff (settled : Settled windows db files) {other : LibrarySource}
    (known : source ∈ db.librarySourcez) (known' : other ∈ db.librarySourcez)
    (stored : blob ∈ db.mediaBlobz) {rest : Path}
    (at_root : blob.localPath = some (under windows other.lastKnownPath rest)) :
    db.relocates source.id windows (base windows source.lastKnownPath) blob = true ↔
      other.id = source.id := by
  obtain ⟨old, sameOld, recorded⟩ := settled.rooted source known
  obtain ⟨root, sameRoot, _⟩ := settled.rooted other known'
  have noNul := (under windows other.lastKnownPath rest).noNul
  have noNul' := noNul_base windows source.lastKnownPath
  have starts (c : Char) (some : c ≠ '\x00') :
      Sqlite.substr (under windows other.lastKnownPath rest).chars 1
        (Sqlite.length (base windows source.lastKnownPath) + 1) = base windows source.lastKnownPath ++ [c] ↔
        base windows source.lastKnownPath ++ [c] <+: (under windows other.lastKnownPath rest).chars := by
    have noNul'' : '\x00' ∉ base windows source.lastKnownPath ++ [c] := by
      rw [List.mem_append, List.mem_singleton]
      exact not_or.mpr ⟨noNul', fun same => some same.symm⟩
    have count : Sqlite.length (base windows source.lastKnownPath ++ [c]) =
        Sqlite.length (base windows source.lastKnownPath) + 1 := by
      rw [Sqlite.length, Sqlite.upToNul_eq noNul'', Sqlite.length, Sqlite.upToNul_eq noNul',
        List.length_append, List.length_singleton]
    rw [← count]
    exact Sqlite.substr_one_eq_iff noNul noNul''
  unfold Database.relocates
  rw [at_root]
  dsimp only
  rw [Bool.and_eq_true, decide_eq_true_eq, Bool.or_eq_true, Bool.or_eq_true, Bool.and_eq_true,
    decide_eq_true_eq, decide_eq_true_eq, decide_eq_true_eq, starts '/' (by decide),
    starts '\\' (by decide)]
  constructor
  · rintro ⟨_, selected⟩
    by_contra differs
    have apart := settled.apart source known other known' (Ne.symm differs)
    rw [sameOld, sameRoot] at apart selected
    obtain ⟨unequal, slash, backslash⟩ := not_selected apart rest
    rcases selected with (equal | below) | ⟨on, below⟩
    · exact unequal equal
    · exact slash below
    · exact backslash on below
  · intro same
    have whole : other = source := Table.eq_of_key_eq _ known' known same
    subst whole
    constructor
    · have lies : db.Lies blob.id other.id := by
        refine ⟨blob, stored, _, recorded, _, rfl, rfl, at_root, ?_⟩
        rw [sameOld]
        exact old.below rest
      exact (settled.consistent.mem_iff blob.id other.id).mpr lies
    · have start := under_begins windows other.lastKnownPath rest
      by_cases on : windows = true
      · have sep : separator windows = '\\' := if_pos on
        rw [sep] at start
        exact .inr ⟨on, start⟩
      · have sep : separator windows = '/' := if_neg on
        rw [sep] at start
        exact .inl (.inr start)

theorem Settled.relocate (settled : Settled windows db files) {stored : LibrarySource}
    (known : db.librarySourcez.get source.id = some stored)
    (unchanged : stored.lastKnownPath = source.lastKnownPath) (root : Root windows)
    (clear : ∀ other ∈ db.librarySourcez, other.id ≠ source.id →
      overlap windows root.path other.lastKnownPath = false)
    (done : db.relocateSource source root.path = some next) : Settled windows next files := by
  obtain ⟨member, named⟩ := (Table.get_eq_some _ _ _).mp known
  obtain ⟨old, sameOld, _⟩ := settled.rooted stored member
  have platform : decide (source.lastKnownPath.chars.head? ≠ some '/') = windows := by
    rw [← unchanged, sameOld]
    exact old.platform
  obtain ⟨first, recorded, done⟩ := Option.bind_eq_some_iff.mp done
  obtain ⟨second, moved, done⟩ := Option.bind_eq_some_iff.mp done
  cases Option.some.inj done
  rw [platform] at moved
  obtain ⟨consistent₁, blobs₁, sources₁, roots₁⟩ :=
    Database.insertPathOrIgnore_spec settled.consistent recorded
  have settled₁ : Settled windows first files := by
    refine ⟨consistent₁, ?_, ?_, ?_⟩
    · rw [sources₁]
      intro other here
      obtain ⟨at_root, same, before⟩ := settled.rooted other here
      exact ⟨at_root, same, (roots₁ _).mpr (.inl before)⟩
    · rw [sources₁]
      exact settled.apart
    · intro file listed
      rw [inPlace, sources₁, blobs₁]
      exact settled.placed file listed
  obtain ⟨consistent₂, sources₂, roots₂, blobs₂⟩ := Database.relocateBlobs_spec consistent₁ moved
  have sources : second.librarySourcez = db.librarySourcez := sources₂.trans sources₁
  have roots (at_root : SourcePath) : at_root ∈ second.librarySourcePathz ↔
      at_root ∈ db.librarySourcePathz ∨ at_root = ⟨source.id, root.path⟩ := by
    rw [roots₂]
    exact roots₁ at_root
  have source_of (other : LibrarySource)
      (here : other ∈ (second.setLastKnownPath source.id root.path).librarySourcez) :
      (other.id = source.id ∧ other.lastKnownPath = root.path) ∨
        (other.id ≠ source.id ∧ other ∈ db.librarySourcez) := by
    rw [Database.setLastKnownPath, Table.mem_update, sources] at here
    obtain ⟨before, present, rfl⟩ := here
    split
    · rename_i same
      exact .inl ⟨of_decide_eq_true same, rfl⟩
    · rename_i differs
      exact .inr ⟨by simpa using differs, present⟩
  refine ⟨consistent₂.setLastKnownPath source.id root.path, ?_, ?_, ?_⟩
  · intro other here
    rcases source_of other here with ⟨same, there⟩ | ⟨_, before⟩
    · exact ⟨root, there, (roots _).mpr (.inr (by rw [same]))⟩
    · obtain ⟨at_root, same, was⟩ := settled.rooted other before
      exact ⟨at_root, same, (roots _).mpr (.inl was)⟩
  · intro a here b here' differs
    rcases source_of a here with ⟨sameA, thereA⟩ | ⟨otherA, beforeA⟩
    · rcases source_of b here' with ⟨sameB, _⟩ | ⟨otherB, beforeB⟩
      · exact absurd (sameA.trans sameB.symm) differs
      · rw [thereA]
        exact clear b beforeB otherB
    · rcases source_of b here' with ⟨_, thereB⟩ | ⟨_, beforeB⟩
      · rw [thereB, overlap_comm]
        exact clear a beforeA otherA
      · exact settled.apart a beforeA b beforeB differs
  · intro file listed
    obtain ⟨at_source, blob, registered, there, path⟩ := inPlace_iff.mp (settled₁.placed file listed)
    obtain ⟨here, sameId⟩ := (Table.get_eq_some _ _ _).mp registered
    obtain ⟨present, _⟩ := (Table.get_eq_some _ _ _).mp there
    have selected := relocates_iff settled₁ (sources₁ ▸ member) here present path
    rw [named, unchanged] at selected
    have source_now : (second.setLastKnownPath source.id root.path).librarySourcez.get file.sourceId =
        some (if at_source.id = source.id then { at_source with lastKnownPath := root.path }
          else at_source) := by
      rw [Database.setLastKnownPath, Table.get_update, sources₂, registered, Option.map_some]
      simp only [decide_eq_true_eq]
    have blob_now : second.mediaBlobz.get file.blobId =
        some (if at_source.id = source.id then
          Database.movedBlob (Database.trimmedPath windows source.lastKnownPath)
            (Database.trimmedPath windows root.path) blob else blob) := by
      rw [blobs₂, there, Option.map_some]
      exact congrArg some (if_congr selected rfl rfl)
    refine inPlace_iff.mpr ⟨_, _, source_now, blob_now, ?_⟩
    split
    · rename_i same
      have whole : at_source = stored :=
        Table.eq_of_key_eq _ (sources₁ ▸ here) member (same.trans named.symm)
      have before : source.lastKnownPath = old.path := unchanged.symm.trans sameOld
      rw [Database.movedBlob, path, whole, sameOld, before, Option.map_some, relocated_under old root]
    · exact path

theorem inPlace_of_kept {file : RecordedFile} (there : inPlace windows db file = true)
    (sources : ∀ id source, db.librarySourcez.get id = some source →
      next.librarySourcez.get id = some source)
    (blobs : ∀ id blob, db.mediaBlobz.get id = some blob → next.mediaBlobz.get id = some blob) :
    inPlace windows next file = true := by
  obtain ⟨source, blob, registered, stored, path⟩ := inPlace_iff.mp there
  exact inPlace_iff.mpr ⟨source, blob, sources _ _ registered, blobs _ _ stored, path⟩

theorem insertBlob_eq (done : db.insertBlob blob = some next) :
    ∃ blobs medias, db.mediaBlobz.insert blob = some blobs ∧
      next = { db with mediaBlobz := blobs, librarySourceMediaz := medias } := by
  obtain ⟨blobs, inserted, done⟩ := Option.bind_eq_some_iff.mp done
  obtain ⟨medias, same⟩ := Database.insertFromView_eq done
  exact ⟨blobs, medias, inserted, same⟩

theorem Settled.insertBlob (settled : Settled windows db files)
    (done : db.insertBlob blob = some next) : Settled windows next files := by
  have consistent : Database.Consistent next := by
    cases Database.insertBlob_decided settled.consistent blob with
    | refused _ none =>
      rw [none] at done
      cases done
    | done result _ some after =>
      rw [done] at some
      cases Option.some.inj some
      exact after
  obtain ⟨blobs, medias, inserted, rfl⟩ := insertBlob_eq done
  refine ⟨consistent, settled.rooted, settled.apart, fun file listed => ?_⟩
  exact inPlace_of_kept (settled.placed file listed) (fun _ _ known => known)
    fun _ _ known => Table.get_of_insert inserted known

theorem Settled.record (settled : Settled windows db files) {blobId : String}
    {rest : Path} (registered : db.librarySourcez.get source.id = some source)
    (done : db.insertBlob ⟨blobId, some (under windows source.lastKnownPath rest)⟩ = some next) :
    Settled windows next (⟨blobId, source.id, rest⟩ :: files) := by
  have kept := settled.insertBlob done
  obtain ⟨blobs, medias, inserted, rfl⟩ := insertBlob_eq done
  refine ⟨kept.consistent, kept.rooted, kept.apart, fun file listed => ?_⟩
  rcases List.mem_cons.mp listed with same | before
  · rw [same]
    refine inPlace_iff.mpr ⟨source, ⟨blobId, some (under windows source.lastKnownPath rest)⟩, registered,
      ?_, rfl⟩
    exact (Table.get_insert _ _ _ inserted _).trans (if_pos rfl)
  · exact kept.placed file before

theorem Settled.register (settled : Settled windows db files)
    (root : Root windows) (there : source.lastKnownPath = root.path)
    (clear : ∀ other ∈ db.librarySourcez, overlap windows root.path other.lastKnownPath = false)
    (done : db.registerSource source = some next) : Settled windows next files := by
  obtain ⟨between, inserted, done⟩ := Option.bind_eq_some_iff.mp done
  have consistent : Database.Consistent between := by
    cases Database.insertSource_decided settled.consistent source with
    | refused _ none =>
      rw [none] at inserted
      cases inserted
    | done result _ some after =>
      rw [inserted] at some
      cases Option.some.inj some
      exact after
  have sources : ∃ sources, db.librarySourcez.insert source = some sources ∧
      between = { db with librarySourcez := sources } := by
    unfold Database.insertSource at inserted
    split at inserted
    · cases inserted
    · obtain ⟨sources, fresh, inserted⟩ := Option.bind_eq_some_iff.mp inserted
      exact ⟨sources, fresh, (Option.some.inj inserted).symm⟩
  obtain ⟨sources, fresh, rfl⟩ := sources
  obtain ⟨consistent', blobs, same, roots⟩ := Database.insertPathOrIgnore_spec consistent done
  have members := Table.insert_eq_some _ _ _ fresh
  refine ⟨consistent', ?_, ?_, fun file listed => ?_⟩
  · rw [same]
    intro other here
    rcases (members other).mp here with before | new
    · obtain ⟨at_root, was, recorded⟩ := settled.rooted other before
      exact ⟨at_root, was, (roots _).mpr (.inl recorded)⟩
    · rw [new]
      exact ⟨root, there, (roots _).mpr (.inr (by rw [there]))⟩
  · rw [same]
    intro a here b here' differs
    rcases (members a).mp here with beforeA | newA
    · rcases (members b).mp here' with beforeB | newB
      · exact settled.apart a beforeA b beforeB differs
      · rw [newB, there, overlap_comm]
        exact clear a beforeA
    · rcases (members b).mp here' with beforeB | newB
      · rw [newA, there]
        exact clear b beforeB
      · exact absurd (by rw [newA, newB]) differs
  · refine inPlace_of_kept (settled.placed file listed) (fun id other known => ?_) fun id blob known => ?_
    · rw [same]
      exact Table.get_of_insert fresh known
    · rw [blobs]
      exact known

theorem Settled.congr (settled : Settled windows db files) (blobs : next.mediaBlobz = db.mediaBlobz)
    (sources : next.librarySourcez = db.librarySourcez)
    (roots : next.librarySourcePathz = db.librarySourcePathz)
    (medias : next.librarySourceMediaz = db.librarySourceMediaz) : Settled windows next files := by
  obtain ⟨_, _, _, _, _, _⟩ := next
  obtain ⟨_, _, _, _, _, _⟩ := db
  cases blobs
  cases sources
  cases roots
  cases medias
  exact ⟨⟨settled.consistent.exact, settled.consistent.owned⟩, settled.rooted, settled.apart,
    settled.placed⟩

end Relocation

/-! Runs of snapshots, in which media are recorded too. -/

/-- A new folder is registered where it is mounted, a file of a source is recorded, another blob is
stored, the registrations for sync change, or a snapshot is applied. -/
inductive Move (windows : Bool) where
  | register (source : LibrarySource) (root : Root windows)
  | record (blobId sourceId : String) (rest : Path)
  | store (blob : MediaBlob)
  | retarget (targets : Table fun row : StorageSyncTarget => (row.owner, row.target.deviceId))
  | snapshot (sources : List LibrarySource) (roots : List (Option (Root windows))) (now : Int)
    (startup : Bool)

def Ledger.empty : Ledger := ⟨⟨∅, []⟩, []⟩

namespace Move

variable {windows : Bool}

def run (move : Move windows) (w : Ledger) : Ledger :=
  match move with
  | register source root =>
    match w.storage.db.registerSource { source with lastKnownPath := root.path } with
    | some db => { w with storage := { w.storage with db } }
    | none => w
  | record blobId sourceId rest =>
    match w.storage.db.librarySourcez.get sourceId with
    | some source =>
      match w.storage.db.insertBlob ⟨blobId, some (under windows source.lastKnownPath rest)⟩ with
      | some db => ⟨{ w.storage with db }, ⟨blobId, source.id, rest⟩ :: w.files⟩
      | none => w
    | none => w
  | store blob =>
    match w.storage.db.insertBlob blob with
    | some db => { w with storage := { w.storage with db } }
    | none => w
  | retarget targets =>
    { w with storage := { w.storage with db := { w.storage.db with storageSyncTargetz := targets } } }
  | snapshot sources roots now startup =>
    let roots := roots.map (·.map Root.path)
    { w with storage := (applySnapshot w.storage sources roots now startup).getD w.storage }

/-- A source that moves comes to a root that no other source has, for all that is known of that. -/
def ClearRoot (targets : List SyncTarget) (now : Int) (storage : Storage) (source : LibrarySource)
    (root : Option (Root windows)) : Prop :=
  ∀ at_root, root = some at_root →
    counts targets now storage (source, some at_root.path) = true → at_root.path ≠ source.lastKnownPath →
      ∀ other ∈ storage.db.librarySourcez, other.id ≠ source.id →
        overlap windows at_root.path other.lastKnownPath = false

def ClearRoots (targets : List SyncTarget) (now : Int) (startup : Bool) :
    List (LibrarySource × Option (Root windows)) → Storage → Prop
  | [], _ => True
  | (source, root) :: rest, storage => ClearRoot targets now storage source root ∧
      ∀ next, applySource targets now startup storage (source, root.map Root.path) = some next →
        ClearRoots targets now startup rest next

/-- Whenever a source is registered or moves, its root overlaps no other source's last known root. -/
def Clear (move : Move windows) (w : Ledger) : Prop :=
  match move with
  | register _ root => ∀ other ∈ w.storage.db.librarySourcez,
      overlap windows root.path other.lastKnownPath = false
  | snapshot sources roots now startup =>
    ClearRoots w.storage.db.listTargets now startup (sources.zip roots) w.storage
  | record .. | store _ | retarget _ => True

end Move

section Runs

variable {windows : Bool}

theorem Settled.applySource {targets : List SyncTarget} {now : Int} {startup : Bool}
    {storage next : Storage} {files : List RecordedFile} {source : LibrarySource}
    {root : Option (Root windows)} (settled : Settled windows storage.db files)
    (clear : Move.ClearRoot targets now storage source root)
    (done : ExternalStorage.applySource targets now startup storage (source, root.map Root.path) =
      some next) : Settled windows next.db files := by
  have applied := applySource_applied done
  generalize same : root.map Root.path = path at applied
  cases applied with
  | passed _ => exact settled
  | counted taken unchanged moved =>
    cases moved with
    | absent => exact settled.congr rfl rfl rfl rfl
    | there => exact settled.congr rfl rfl rfl rfl
    | relocated elsewhere relocates =>
      obtain ⟨at_root, found, rfl⟩ := Option.map_eq_some_iff.mp same
      obtain ⟨stored, known, last⟩ := Option.map_eq_some_iff.mp unchanged
      have moved := settled.relocate known last at_root (clear at_root found taken elsewhere) relocates
      exact moved.congr rfl rfl rfl rfl

theorem Settled.applySources {targets : List SyncTarget} {now : Int} {startup : Bool}
    {observations : List (LibrarySource × Option (Root windows))} {storage next : Storage}
    {files : List RecordedFile} (settled : Settled windows storage.db files)
    (clear : Move.ClearRoots targets now startup observations storage)
    (done : (observations.map fun observation => (observation.1, observation.2.map Root.path)).foldlM
      (ExternalStorage.applySource targets now startup) storage = some next) :
    Settled windows next.db files := by
  induction observations generalizing storage with
  | nil =>
    cases Option.some.inj done
    exact settled
  | cons first rest ih =>
    rw [List.map_cons, List.foldlM_cons] at done
    obtain ⟨between, now_done, later⟩ := Option.bind_eq_some_iff.mp done
    exact ih (settled.applySource clear.1 now_done) (clear.2 between now_done) later

theorem Settled.run {w : Ledger} (settled : Settled windows w.storage.db w.files) (move : Move windows)
    (clear : move.Clear w) : Settled windows (move.run w).storage.db (move.run w).files := by
  cases move with
  | register source root =>
    unfold Move.run
    dsimp only
    split
    · rename_i db registered
      exact settled.register root rfl clear registered
    · exact settled
  | record blobId sourceId rest =>
    unfold Move.run
    dsimp only
    split
    · rename_i source known
      split
      · rename_i db recorded
        have named := ((Table.get_eq_some _ _ _).mp known).2
        exact settled.record (named ▸ known) recorded
      · exact settled
    · exact settled
  | store blob =>
    unfold Move.run
    dsimp only
    split
    · rename_i db stored
      exact settled.insertBlob stored
    · exact settled
  | retarget targets => exact settled.congr rfl rfl rfl rfl
  | snapshot sources roots now startup =>
    unfold Move.run
    dsimp only
    cases applied : applySnapshot w.storage sources (roots.map (·.map Root.path)) now startup with
    | none => exact settled
    | some next =>
      unfold applySnapshot at applied
      split at applied
      · cases applied
      · rw [List.zip_map_right] at applied
        exact settled.applySources clear applied

theorem Settled.empty : Settled windows Ledger.empty.storage.db Ledger.empty.files where
  consistent := Database.Consistent.empty
  rooted := fun source here => absurd here (Table.not_mem_empty source)
  apart := fun source here => absurd here (Table.not_mem_empty source)
  placed := fun _ listed => absurd listed List.not_mem_nil

theorem not_below_of_apart {root other : Root windows}
    (apart : overlap windows root.path other.path = false) (rest : Path) :
    ¬Below root.path.chars (under windows other.path rest).chars := by
  obtain ⟨_, slash, backslash⟩ := not_selected apart rest
  rintro ⟨dir, sep, tail, separates, goes, place⟩
  have not_behind : ¬base windows root.path ++ [sep] <+: (under windows other.path rest).chars := by
    rcases isSeparator_iff.mp separates with same | ⟨windowsRoot, same⟩
    · rw [same]
      exact slash
    · rw [same]
      exact backslash (root.platform.symm.trans (decide_eq_true windowsRoot))
  have trimmed : ∀ front, base windows root.path ≠ front ++ [sep] := by
    intro front ends
    have kept : base windows root.path ≠ [] := by
      rw [ends]
      exact List.concat_ne_nil _ _
    have last := List.rdropWhile_last_not (isTrimmed windows) root.path.chars kept
    have same : (base windows root.path).getLast kept = sep := by
      simp only [ends, List.getLast_concat]
    refine last ?_
    change isTrimmed windows ((base windows root.path).getLast kept) = true
    rw [same, isTrimmed]
    rcases isSeparator_iff.mp separates with slash | ⟨windowsRoot, backslash⟩
    · rw [slash]
      rfl
    · rw [backslash, ← root.platform.symm.trans (decide_eq_true windowsRoot)]
      simp
  have here : base windows root.path = dir → False := by
    intro same
    rw [← same] at goes
    exact not_behind ⟨tail, by rw [goes, List.append_assoc, List.singleton_append]⟩
  rcases place with whole | ends <;> rcases root.shape with bare | closed
  · exact here (bare.symm.trans whole)
  · have own : ¬base windows root.path ++ [separator windows] <+:
        (under windows other.path rest).chars := by
      by_cases on : windows = true
      · have sep : separator windows = '\\' := if_pos on
        rw [sep]
        exact backslash on
      · have sep : separator windows = '/' := if_neg on
        rw [sep]
        exact slash
    refine own ⟨sep :: tail, ?_⟩
    rw [goes, ← whole, closed]
  · exact trimmed dir (bare.symm.trans ends)
  · exact here (List.append_inj_left' (closed.symm.trans ends) rfl)

/-- While no source is registered at or moves to a root that overlaps another's, every file that was
recorded on a source is at the source's last known root with its path unchanged behind it, and below no
other source's. -/
theorem files_follow_their_source (moves : List (Move windows))
    (clear : Meets Move.run Move.Clear moves Ledger.empty) :
    let w := runAll Move.run moves Ledger.empty
    ∀ file ∈ w.files, inPlace windows w.storage.db file = true ∧
      ∀ source ∈ w.storage.db.librarySourcez, source.id ≠ file.sourceId →
        ∀ blob ∈ w.storage.db.mediaBlobz, blob.id = file.blobId → ∀ path, blob.localPath = some path →
          ¬Below source.lastKnownPath.chars path.chars := by
  intro w file listed
  have settled : Settled windows w.storage.db w.files :=
    @Meets.keeps _ _ _ _ (fun w => Settled windows w.storage.db w.files)
      (fun move w fits settled => settled.run move fits) _ _ clear Settled.empty
  have there := settled.placed file listed
  refine ⟨there, fun source here differs blob stored named path at_path => ?_⟩
  obtain ⟨own, blob', registered, stored', place⟩ := inPlace_iff.mp there
  obtain ⟨member, sameId⟩ := (Table.get_eq_some _ _ _).mp registered
  have whole : blob = blob' :=
    Table.eq_of_key_eq _ stored ((Table.get_eq_some _ _ _).mp stored').1
      (named.trans ((Table.get_eq_some _ _ _).mp stored').2.symm)
  rw [← whole, at_path] at place
  have apart := settled.apart source here own member (sameId.symm ▸ differs)
  obtain ⟨root, sameRoot, _⟩ := settled.rooted source here
  obtain ⟨root', sameRoot', _⟩ := settled.rooted own member
  rw [Option.some.inj place, sameRoot, sameRoot']
  rw [sameRoot, sameRoot'] at apart
  exact not_below_of_apart apart file.rest

/-- A disk with one file comes back at another mount point. -/
theorem remount_moves_file :
    let x : Root false := ⟨⟨['/', 'x'], by decide⟩, by decide, .inl (by decide), by decide⟩
    let y : Root false := ⟨⟨['/', 'y'], by decide⟩, by decide, .inl (by decide), by decide⟩
    let disk : LibrarySource := ⟨"a", "key", none, none, none, ⟨[], by decide⟩, x.path, .both⟩
    let moves : List (Move false) := [.register disk x, .record "song" "a" ⟨['s'], by decide⟩,
      .snapshot [disk] [some y] 5 false]
    let w := runAll Move.run moves Ledger.empty
    ∀ file ∈ w.files, inPlace false w.storage.db file = true ∧
      ∀ source ∈ w.storage.db.librarySourcez, source.id ≠ file.sourceId →
        ∀ blob ∈ w.storage.db.mediaBlobz, blob.id = file.blobId → ∀ path, blob.localPath = some path →
          ¬Below source.lastKnownPath.chars path.chars := by
  intro x y disk moves
  let before := runAll Move.run [.register disk x, .record "song" "a" ⟨['s'], by decide⟩] Ledger.empty
  have only : ∀ other ∈ before.storage.db.librarySourcez.rows, other.id = "a" := by decide
  refine files_follow_their_source moves ⟨?_, trivial, ⟨?_, fun _ _ => trivial⟩, trivial⟩
  · intro other here
    exact absurd here (Table.not_mem_empty other)
  · intro at_root _ _ _ other here differs
    exact absurd (only other here) differs

/-- Two disks swap their mount points in one snapshot: the file of the first goes along with the second. -/
theorem swapped_mounts_mix_files : ¬∀ moves : List (Move false),
    ∀ file ∈ (runAll Move.run moves Ledger.empty).files,
      inPlace false (runAll Move.run moves Ledger.empty).storage.db file = true := by
  intro follow
  let x : Root false := ⟨⟨['/', 'x'], by decide⟩, by decide, .inl (by decide), by decide⟩
  let y : Root false := ⟨⟨['/', 'y'], by decide⟩, by decide, .inl (by decide), by decide⟩
  let first : LibrarySource := ⟨"a", "one", none, none, none, ⟨[], by decide⟩, x.path, .both⟩
  let second : LibrarySource := ⟨"b", "two", none, none, none, ⟨[], by decide⟩, y.path, .both⟩
  let moves : List (Move false) := [.register first x, .register second y,
    .record "song" "a" ⟨['s'], by decide⟩, .snapshot [first, second] [some y, some x] 5 false]
  have mixed : ¬∀ file ∈ (runAll Move.run moves Ledger.empty).files,
      inPlace false (runAll Move.run moves Ledger.empty).storage.db file = true := by
    decide
  exact mixed (follow moves)

end Runs

end Tomb.Grimoire.ExternalStorage
