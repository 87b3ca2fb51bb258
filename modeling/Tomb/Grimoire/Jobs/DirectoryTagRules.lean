import Mathlib.Data.List.Dedup
import Tomb.Lib.Hashing
import Tomb.Grimoire.ExternalStorage.SyncPriority

/-! Directory tag rules: which tags the albums with files in a directory are given and lose. -/
namespace Tomb.Grimoire.Jobs.DirectoryTagRules
open Tomb.Lib
open ExternalStorage (Component component components isName isProper_iff Names named spelled)

structure Tag where
  (id name : String)
  deletedAt : Option Int
  deriving DecidableEq

structure DirectoryTagRule where
  (directoryPath tagId : String)
  deriving DecidableEq

structure Song where
  (id mediaBlobId : String)

structure MediaBlob where
  id : String
  localPath : Option String

structure AlbumSong where
  (albumId songId : String)

structure AlbumTag where
  (albumId tagId : String)
  deriving DecidableEq

structure Library where
  tagz : Table Tag.id
  directoryTagRules : Table fun rule : DirectoryTagRule => rule
  mediaBlobz : Table MediaBlob.id
  songz : Table Song.id
  albumSongz : List AlbumSong
  albumTagz : Table fun row : AlbumTag => row

def normalizeDirectoryPath (path : String) : String :=
  let trimmed := Text.trim path
  if trimmed = "/" then "/" else String.ofList (trimmed.toList.rdropWhile (· = '/'))

namespace Library

variable (lib : Library)

def insertRule (directory : String) (lib : Library) (tag : Tag) : Library :=
  { lib with directoryTagRules :=
      (lib.directoryTagRules.insert ⟨directory, tag.id⟩).getD lib.directoryTagRules }

def addDirectoryTags (directoryPath : String) (tags : List Tag) : Library :=
  tags.foldl (insertRule (normalizeDirectoryPath directoryPath)) lib

def ruledTags : List Tag :=
  ((lib.directoryTagRules.rows.filterMap fun rule => lib.tagz.get rule.tagId).filter
    (·.deletedAt.isNone)).dedup

def matchingTagIds (filePath : String) : List String :=
  (lib.directoryTagRules.rows.filter fun rule =>
    rule.directoryPath.toList.isPrefixOf filePath.toList).map (·.tagId)

def getTagsForFilePath (filePath : String) : List Tag :=
  lib.ruledTags.filter fun tag => tag.id ∈ lib.matchingTagIds filePath

def songPath (songId : String) : Option String := do
  let song ← lib.songz.get songId
  let blob ← lib.mediaBlobz.get song.mediaBlobId
  blob.localPath

def filePaths (albumId : String) : List String :=
  ((lib.albumSongz.filter (·.albumId = albumId)).filterMap fun link =>
    lib.songPath link.songId).dedup

def insertAlbumTag (albumId : String) (rows : Table fun row : AlbumTag => row) (tagId : String) :
    Table fun row : AlbumTag => row :=
  (rows.insert ⟨albumId, tagId⟩).getD rows

def applyDirectoryTagsToAlbum (order : VisitOrder String) (albumId : String) :
    Library × List String :=
  let tagIdsToApply := order.arrange ((lib.filePaths albumId).flatMap lib.matchingTagIds).dedup
  ({ lib with albumTagz := tagIdsToApply.foldl (insertAlbumTag albumId) lib.albumTagz },
    tagIdsToApply)

def foldName (name : String) : List Char :=
  ((Sqlite.lower name).dropWhile (· = ' ')).rdropWhile (· = ' ')

def findTagId (name : String) : Option String :=
  (lib.tagz.rows.find? fun tag => foldName tag.name = foldName name && tag.deletedAt.isNone).map
    (·.id)

def albumsUnder (directory : String) : List String :=
  ((lib.albumSongz.filter fun link => (lib.songPath link.songId).any fun path =>
    Sqlite.like none (directory.toList ++ ['%']) path.toList).map (·.albumId)).dedup

def deleteAlbumTag (albumId : String) (removed : Library × Nat) (tagId : String) : Library × Nat :=
  let goes (row : AlbumTag) : Bool := row.albumId = albumId && row.tagId = tagId
  ({ removed.1 with albumTagz := removed.1.albumTagz.deleteWhere goes },
    removed.2 + (removed.1.albumTagz.select goes).length)

def deleteAlbumTags (albumIds tagIds : List String) : Library × Nat :=
  albumIds.foldl (fun removed albumId => tagIds.foldl (deleteAlbumTag albumId) removed) (lib, 0)

def stripTagsFromDirectory (directoryPath : String) (tagNames : List String) :
    Except String (Library × Nat) :=
  if tagNames.isEmpty then .error "must provide at least one tag name"
  else .ok (lib.deleteAlbumTags (lib.albumsUnder (normalizeDirectoryPath directoryPath))
    (tagNames.filterMap lib.findTagId))

def clearTagsFromDirectory (directoryPath : String) : Library × Nat :=
  let directory := normalizeDirectoryPath directoryPath
  lib.deleteAlbumTags (lib.albumsUnder directory)
    ((lib.directoryTagRules.rows.filter (·.directoryPath = directory)).map (·.tagId))

end Library

/-! ## A directory and the files inside it -/

/-- The directory is the file's own path or one of its ancestors. -/
def Contains (directory file : String) : Prop :=
  components directory.toList <+: components file.toList

instance (directory file : String) : Decidable (Contains directory file) :=
  inferInstanceAs (Decidable (_ <+: _))

def Starts (directory file : String) : Prop := directory.toList <+: file.toList

instance (directory file : String) : Decidable (Starts directory file) :=
  inferInstanceAs (Decidable (_ <+: _))

/-- What the removals ask instead: whether the path matches a pattern. -/
def Matches (directory file : String) : Prop :=
  Sqlite.like none (directory.toList ++ ['%']) file.toList = true

instance (directory file : String) : Decidable (Matches directory file) :=
  inferInstanceAs (Decidable (_ = true))

namespace Library

variable (lib : Library)

def Live (tagId : String) : Prop := ∃ tag ∈ lib.tagz, tag.id = tagId ∧ tag.deletedAt = none

/-- Some rule gives the tag to one of the files, as the test has it. -/
def Given (test : String → String → Prop) (files : List String) (tagId : String) : Prop :=
  ∃ rule ∈ lib.directoryTagRules, rule.tagId = tagId ∧ ∃ file ∈ files, test rule.directoryPath file

end Library

inductive Call where
  | getTagsForFilePath (filePath : String)
  | applyDirectoryTagsToAlbum (albumId : String)
  | stripTagsFromDirectory (directoryPath : String) (tagNames : List String)
  | clearTagsFromDirectory (directoryPath : String)

namespace Library

/-- The rows are left that are not of one of the tags and an album with a file in the directory. -/
def ClearsExactly (lib after : Library) (directory : String) (tagIds : List String) : Prop :=
  ∀ row, row ∈ after.albumTagz ↔ row ∈ lib.albumTagz ∧
    ¬ (row.tagId ∈ tagIds ∧ ∃ file ∈ lib.filePaths row.albumId, Contains directory file)

def rulesOf (lib : Library) (directory : String) : List String :=
  (lib.directoryTagRules.rows.filter (·.directoryPath = directory)).map (·.tagId)

def Follows (order : VisitOrder String) (lib : Library) : Call → Prop
  | .getTagsForFilePath filePath => ∀ tag, tag ∈ lib.getTagsForFilePath filePath ↔
      tag ∈ lib.tagz ∧ tag.deletedAt = none ∧ lib.Given Contains [filePath] tag.id
  | .applyDirectoryTagsToAlbum albumId =>
    let (after, applied) := lib.applyDirectoryTagsToAlbum order albumId
    (∀ tagId, tagId ∈ applied ↔
      lib.Live tagId ∧ lib.Given Contains (lib.filePaths albumId) tagId) ∧
    ∀ row, row ∈ after.albumTagz ↔ row ∈ lib.albumTagz ∨
      row.albumId = albumId ∧ lib.Live row.tagId ∧
        lib.Given Contains (lib.filePaths albumId) row.tagId
  | .stripTagsFromDirectory directoryPath tagNames =>
    ∀ after removed, lib.stripTagsFromDirectory directoryPath tagNames = .ok (after, removed) →
      lib.ClearsExactly after (normalizeDirectoryPath directoryPath)
        (tagNames.filterMap lib.findTagId)
  | .clearTagsFromDirectory directoryPath =>
    lib.ClearsExactly (lib.clearTagsFromDirectory directoryPath).1
      (normalizeDirectoryPath directoryPath) (lib.rulesOf (normalizeDirectoryPath directoryPath))

/-- Where a rule of the tag misjudges a file, another rule or file makes up for it. -/
def MakesUp (lib : Library) (files : List String) (tagId : String) : Prop :=
  ∀ rule ∈ lib.directoryTagRules, rule.tagId = tagId → ∀ file ∈ files,
    (Starts rule.directoryPath file → ¬ Contains rule.directoryPath file →
      lib.Given Contains files tagId) ∧
    (Contains rule.directoryPath file → ¬ Starts rule.directoryPath file →
      lib.Given Starts files tagId)

/-- Where the pattern misjudges a file of the album, another file makes up for it. -/
def AlbumMakesUp (lib : Library) (directory albumId : String) : Prop :=
  ∀ file ∈ lib.filePaths albumId,
    (Matches directory file → ¬ Contains directory file →
      ∃ other ∈ lib.filePaths albumId, Contains directory other) ∧
    (Contains directory file → ¬ Matches directory file →
      ∃ other ∈ lib.filePaths albumId, Matches directory other)

def Judged (lib : Library) : Call → Prop
  | .getTagsForFilePath filePath => ∀ tagId, lib.Live tagId → lib.MakesUp [filePath] tagId
  | .applyDirectoryTagsToAlbum albumId => ∀ tagId,
      (lib.Live tagId → lib.MakesUp (lib.filePaths albumId) tagId) ∧
      (¬ lib.Live tagId → ¬ lib.Given Starts (lib.filePaths albumId) tagId)
  | .stripTagsFromDirectory directoryPath tagNames => ∀ row ∈ lib.albumTagz,
      row.tagId ∈ tagNames.filterMap lib.findTagId →
        lib.AlbumMakesUp (normalizeDirectoryPath directoryPath) row.albumId
  | .clearTagsFromDirectory directoryPath => ∀ row ∈ lib.albumTagz,
      row.tagId ∈ lib.rulesOf (normalizeDirectoryPath directoryPath) →
        lib.AlbumMakesUp (normalizeDirectoryPath directoryPath) row.albumId

variable {lib : Library}

theorem exists_iff_exists {α : Type} {p q : α → Prop} :
    ((∃ a, p a) ↔ ∃ a, q a) ↔
      ∀ a, (p a → ¬ q a → ∃ b, q b) ∧ (q a → ¬ p a → ∃ b, p b) := by
  constructor
  · intro agree a
    exact ⟨fun holds _ => agree.mp ⟨a, holds⟩, fun holds _ => agree.mpr ⟨a, holds⟩⟩
  · intro makesUp
    constructor
    · rintro ⟨a, holds⟩
      by_contra none
      exact none ((makesUp a).1 holds fun other => none ⟨a, other⟩)
    · rintro ⟨a, holds⟩
      by_contra none
      exact none ((makesUp a).2 holds fun other => none ⟨a, other⟩)

variable {tagId : String}

theorem given_iff_given {files : List String} :
    (lib.Given Starts files tagId ↔ lib.Given Contains files tagId) ↔ lib.MakesUp files tagId := by
  have pairs (test : String → String → Prop) : lib.Given test files tagId ↔
      ∃ pair : DirectoryTagRule × String, (pair.1 ∈ lib.directoryTagRules ∧
        pair.1.tagId = tagId ∧ pair.2 ∈ files) ∧ test pair.1.directoryPath pair.2 := by
    constructor
    · rintro ⟨rule, stored, named, file, listed, holds⟩
      exact ⟨(rule, file), ⟨stored, named, listed⟩, holds⟩
    · rintro ⟨⟨rule, file⟩, ⟨stored, named, listed⟩, holds⟩
      exact ⟨rule, stored, named, file, listed, holds⟩
  rw [MakesUp, pairs, pairs, exists_iff_exists]
  constructor
  · intro agree rule stored named file listed
    have both := agree (rule, file)
    exact ⟨fun holds fails => both.1 ⟨⟨stored, named, listed⟩, holds⟩ fun other => fails other.2,
      fun holds fails => both.2 ⟨⟨stored, named, listed⟩, holds⟩ fun other => fails other.2⟩
  · rintro makesUp ⟨rule, file⟩
    constructor
    · rintro ⟨⟨stored, named, listed⟩, holds⟩ fails
      exact (makesUp rule stored named file listed).1 holds fun other =>
        fails ⟨⟨stored, named, listed⟩, other⟩
    · rintro ⟨⟨stored, named, listed⟩, holds⟩ fails
      exact (makesUp rule stored named file listed).2 holds fun other =>
        fails ⟨⟨stored, named, listed⟩, other⟩

theorem mem_matchingTagIds {filePath : String} :
    tagId ∈ lib.matchingTagIds filePath ↔ lib.Given Starts [filePath] tagId := by
  unfold matchingTagIds Given Starts
  simp only [List.mem_map, List.mem_filter, List.isPrefixOf_iff_prefix, List.mem_singleton,
    exists_eq_left, Table.mem_def, and_left_comm, and_comm]

theorem mem_getTagsForFilePath {filePath : String} {tag : Tag} :
    tag ∈ lib.getTagsForFilePath filePath ↔
      tag ∈ lib.tagz ∧ tag.deletedAt = none ∧ lib.Given Starts [filePath] tag.id := by
  rw [getTagsForFilePath, List.mem_filter, decide_eq_true_eq, mem_matchingTagIds, ruledTags,
    List.mem_dedup, List.mem_filter, List.mem_filterMap, Option.isNone_iff_eq_none]
  constructor
  · rintro ⟨⟨⟨rule, -, found⟩, live⟩, given⟩
    exact ⟨((Table.get_eq_some _ _ _).mp found).1, live, given⟩
  · rintro ⟨stored, live, given⟩
    have ⟨rule, ruled, named, _⟩ := given
    exact ⟨⟨⟨rule, ruled, (Table.get_eq_some _ _ _).mpr ⟨stored, named.symm⟩⟩, live⟩, given⟩

theorem given_files {test : String → String → Prop} {files : List String} :
    lib.Given test files tagId ↔ ∃ file ∈ files, lib.Given test [file] tagId := by
  unfold Given
  simp only [List.mem_singleton, exists_eq_left]
  constructor
  · rintro ⟨rule, stored, named, file, listed, holds⟩
    exact ⟨file, listed, rule, stored, named, holds⟩
  · rintro ⟨file, listed, rule, stored, named, holds⟩
    exact ⟨rule, stored, named, file, listed, holds⟩

variable {albumId : String}

theorem mem_applied {order : VisitOrder String} :
    tagId ∈ (lib.applyDirectoryTagsToAlbum order albumId).2 ↔
      lib.Given Starts (lib.filePaths albumId) tagId := by
  rw [applyDirectoryTagsToAlbum, (order.perm _).mem_iff, List.mem_dedup, List.mem_flatMap,
    given_files]
  simp only [mem_matchingTagIds]

theorem mem_insertAlbumTag {rows : Table fun row : AlbumTag => row} {row : AlbumTag} :
    row ∈ insertAlbumTag albumId rows tagId ↔ row ∈ rows ∨ row = ⟨albumId, tagId⟩ := by
  unfold insertAlbumTag
  cases inserted : rows.insert ⟨albumId, tagId⟩ with
  | some next => exact Table.insert_eq_some _ _ _ inserted row
  | none =>
    obtain ⟨old, stored, same⟩ := (Table.insert_eq_none _ _).mp inserted
    refine ⟨.inl, ?_⟩
    rintro (known | rfl)
    · exact known
    · exact same ▸ stored

theorem mem_insertAlbumTags {albumId : String} {tagIds : List String}
    {rows : Table fun row : AlbumTag => row} {row : AlbumTag} :
    row ∈ tagIds.foldl (insertAlbumTag albumId) rows ↔
      row ∈ rows ∨ row.albumId = albumId ∧ row.tagId ∈ tagIds := by
  induction tagIds generalizing rows with
  | nil => simp
  | cons tagId tagIds ih =>
    have isRow : row = ⟨albumId, tagId⟩ ↔ row.albumId = albumId ∧ row.tagId = tagId := by
      obtain ⟨_, _⟩ := row
      exact AlbumTag.mk.injEq _ _ _ _ ▸ Iff.rfl
    rw [List.foldl_cons, ih, mem_insertAlbumTag, isRow, List.mem_cons, and_or_left, or_assoc]

variable {tagIds : List String}

theorem mem_deleteTags {removed : Library × Nat}
    {row : AlbumTag} : row ∈ (tagIds.foldl (deleteAlbumTag albumId) removed).1.albumTagz ↔
      row ∈ removed.1.albumTagz ∧ ¬ (row.albumId = albumId ∧ row.tagId ∈ tagIds) := by
  induction tagIds generalizing removed with
  | nil => simp
  | cons tagId tagIds ih =>
    rw [List.foldl_cons, ih, deleteAlbumTag, Table.mem_deleteWhere, List.mem_cons, and_or_left,
      not_or, and_assoc]
    refine and_congr_right fun _ => and_congr_left fun _ => ?_
    rw [← Bool.not_eq_true, Bool.and_eq_true, decide_eq_true_eq, decide_eq_true_eq]

theorem mem_deleteAlbumTags {albumIds : List String} {row : AlbumTag} :
    row ∈ (lib.deleteAlbumTags albumIds tagIds).1.albumTagz ↔
      row ∈ lib.albumTagz ∧ ¬ (row.tagId ∈ tagIds ∧ row.albumId ∈ albumIds) := by
  have general (removed : Library × Nat) : row ∈ (albumIds.foldl (fun removed albumId =>
      tagIds.foldl (deleteAlbumTag albumId) removed) removed).1.albumTagz ↔
        row ∈ removed.1.albumTagz ∧ ¬ (row.tagId ∈ tagIds ∧ row.albumId ∈ albumIds) := by
    induction albumIds generalizing removed with
    | nil => simp
    | cons albumId albumIds ih =>
      rw [List.foldl_cons, ih, mem_deleteTags, List.mem_cons, and_or_left, not_or, and_assoc]
      exact and_congr_right fun _ => and_congr_left fun _ => not_congr and_comm
  exact general (lib, 0)

variable {directory : String}

theorem mem_albumsUnder : albumId ∈ lib.albumsUnder directory ↔
    ∃ file ∈ lib.filePaths albumId, Matches directory file := by
  unfold albumsUnder filePaths Matches
  simp only [List.mem_dedup, List.mem_map, List.mem_filter, List.mem_filterMap, Option.any_eq_true,
    decide_eq_true_eq]
  constructor
  · rintro ⟨link, ⟨stored, file, placed, reached⟩, rfl⟩
    exact ⟨file, ⟨link, ⟨stored, rfl⟩, placed⟩, reached⟩
  · rintro ⟨file, ⟨link, ⟨stored, rfl⟩, placed⟩, reached⟩
    exact ⟨link, ⟨stored, file, placed, reached⟩, rfl⟩

theorem albumMakesUp_iff : (albumId ∈ lib.albumsUnder directory ↔
      ∃ file ∈ lib.filePaths albumId, Contains directory file) ↔
        lib.AlbumMakesUp directory albumId := by
  rw [mem_albumsUnder, AlbumMakesUp, exists_iff_exists]
  constructor
  · intro agree file listed
    exact ⟨fun holds fails => (agree file).1 ⟨listed, holds⟩ fun other => fails other.2,
      fun holds fails => (agree file).2 ⟨listed, holds⟩ fun other => fails other.2⟩
  · intro makesUp file
    exact ⟨fun holds fails => (makesUp file holds.1).1 holds.2 fun other => fails ⟨holds.1, other⟩,
      fun holds fails => (makesUp file holds.1).2 holds.2 fun other => fails ⟨holds.1, other⟩⟩

/-- The removal is exact if the pattern judges the albums right that have one of the tags. -/
theorem clearsExactly_iff :
    lib.ClearsExactly (lib.deleteAlbumTags (lib.albumsUnder directory) tagIds).1 directory tagIds ↔
      ∀ row ∈ lib.albumTagz, row.tagId ∈ tagIds → lib.AlbumMakesUp directory row.albumId := by
  unfold ClearsExactly
  simp only [mem_deleteAlbumTags, ← albumMakesUp_iff]
  refine forall_congr' fun row => ?_
  constructor
  · intro exact stored named
    have here := (exact.trans (and_iff_right stored))
    rw [and_iff_right stored, and_iff_right named, and_iff_right named] at here
    exact not_iff_not.mp here
  · intro agree
    refine and_congr_right fun stored => not_congr (and_congr_right fun named => ?_)
    exact agree stored named

/-- A call follows the directories just if no file that a rule or a pattern misjudges decides it. -/
theorem follows_iff (order : VisitOrder String) (lib : Library) (call : Call) :
    lib.Follows order call ↔ lib.Judged call := by
  cases call with
  | getTagsForFilePath filePath =>
    simp only [Follows, Judged, mem_getTagsForFilePath, ← given_iff_given]
    constructor
    · rintro agree tagId ⟨tag, stored, rfl, live⟩
      have both := agree tag
      rwa [and_iff_right stored, and_iff_right live, and_iff_right stored, and_iff_right live]
        at both
    · intro agree tag
      exact and_congr_right fun stored => and_congr_right fun live =>
        agree tag.id ⟨tag, stored, rfl, live⟩
  | applyDirectoryTagsToAlbum albumId =>
    have agrees (tagId : String) : (lib.Given Starts (lib.filePaths albumId) tagId ↔
        lib.Live tagId ∧ lib.Given Contains (lib.filePaths albumId) tagId) ↔
          (lib.Live tagId → lib.MakesUp (lib.filePaths albumId) tagId) ∧
          (¬ lib.Live tagId → ¬ lib.Given Starts (lib.filePaths albumId) tagId) := by
      rw [← given_iff_given]
      tauto
    simp only [Follows, Judged, mem_applied, ← agrees]
    refine ⟨And.left, fun exact => ⟨exact, fun row => ?_⟩⟩
    have rows := @mem_insertAlbumTags albumId (lib.applyDirectoryTagsToAlbum order albumId).2
      lib.albumTagz row
    rw [mem_applied, exact] at rows
    exact rows
  | stripTagsFromDirectory directoryPath tagNames =>
    rw [Judged, ← clearsExactly_iff]
    cases tagNames with
    | nil =>
      refine iff_of_true (fun after removed done => ?_) fun row => ?_
      · cases done
      · rw [mem_deleteAlbumTags]
        simp
    | cons name tagNames =>
      refine ⟨fun all => all _ _ rfl, fun exact after removed done => ?_⟩
      have same : (lib.deleteAlbumTags (lib.albumsUnder (normalizeDirectoryPath directoryPath))
          ((name :: tagNames).filterMap lib.findTagId)).1 = after :=
        congrArg Prod.fst (Except.ok.inj done)
      exact same ▸ exact
  | clearTagsFromDirectory directoryPath => exact clearsExactly_iff

def jazz : Tag := ⟨"tag", "jazz", none⟩

def jazzRule : Library :=
  addDirectoryTags ⟨⟨[jazz], List.nodup_singleton _⟩, ∅, ∅, ∅, [], ∅⟩ "/music/jazz/" [jazz]

/-- The rule reaches the directory beside its own. -/
theorem sibling_is_tagged : ¬ jazzRule.Follows ⟨id, fun _ => .refl _⟩
    (.getTagsForFilePath "/music/jazz-rock/song") := by
  intro follows
  obtain ⟨-, -, rule, stored, -, file, listed, inside⟩ := (follows jazz).mp (by decide)
  have outside : ∀ rule ∈ jazzRule.directoryTagRules.rows,
      ¬ Contains rule.directoryPath "/music/jazz-rock/song" := by decide
  exact outside rule stored (List.mem_singleton.mp listed ▸ inside)

end Library

end Tomb.Grimoire.Jobs.DirectoryTagRules
