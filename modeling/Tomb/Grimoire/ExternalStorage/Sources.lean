import Tomb.Grimoire.ExternalStorage.Database

/-! The registration of a source: a folder of a mounted volume. -/
namespace Tomb.Grimoire.ExternalStorage
open Tomb.Lib

def isName (piece : List Char) : Bool := piece ≠ [] && piece ≠ ['.']

def isProper (name : List Char) : Bool :=
  isName name && name ≠ ['.', '.'] && '/' ∉ name && '\x00' ∉ name

theorem isProper_iff {name : List Char} : isProper name = true ↔
    isName name = true ∧ name ≠ ['.', '.'] ∧ '/' ∉ name ∧ '\x00' ∉ name := by
  simp [isProper, and_assoc]

structure Names where
  list : List (List Char)
  proper : ∀ name ∈ list, isProper name = true

namespace Names

variable (names : Names)

def joined : List Char := ['/'].intercalate names.list

theorem noNul_joined : '\x00' ∉ names.joined := by
  intro member
  rcases Text.mem_intercalate '/' member with sep | ⟨name, listed, member⟩
  · cases sep
  · exact (isProper_iff.mp (names.proper name listed)).2.2.2 member

def absolute : Path where
  chars := '/' :: names.joined
  noNul := List.not_mem_cons_of_ne_of_not_mem (by decide) names.noNul_joined

def relative : Path where
  chars := names.joined
  noNul := names.noNul_joined

def stripPrefix (base : Names) : Option Names :=
  if base.list <+: names.list then
    some ⟨names.list.drop base.list.length, fun name member =>
      names.proper name (List.mem_of_mem_drop member)⟩
  else none

theorem joined_nil (none : names.list = []) : names.joined = [] := by
  rw [joined, none]
  rfl

theorem spelled_joined (some : names.list ≠ []) : spelled names.joined = names.list :=
  List.splitOn_intercalate '/' (fun name listed => (isProper_iff.mp (names.proper name listed)).2.2.1)
    some

theorem absolute_nil (none : names.list = []) : names.absolute.chars = ['/'] :=
  congrArg ('/' :: ·) (names.joined_nil none)

theorem spelled_absolute (some : names.list ≠ []) :
    spelled names.absolute.chars = [] :: names.list := by
  rw [absolute, spelled_slash, spelled_joined names some]

theorem directory_absolute (some : names.list ≠ []) :
    directory names.absolute.chars = names.absolute.chars := by
  rcases root_eq_directory names.absolute.chars with same | slashed
  · exact same.symm
  · have pieces := names.spelled_absolute some
    rw [slashed, spelled_concat] at pieces
    have last : ([] : List Char) ∈ names.list := by
      have ends := congrArg List.getLast? pieces
      rw [List.getLast?_concat, List.getLast?_cons, List.getLast?_eq_some_getLast some] at ends
      have same := Option.some.inj ends
      rw [Option.getD_some] at same
      exact same ▸ List.getLast_mem some
    have proper := names.proper [] last
    cases proper

end Names

structure RemovableVolume where
  (uuid partitionUuid label : Option String)

namespace Database

variable (db : Database)

def insertPathOrIgnore (row : SourcePath) : Option Database :=
  if row ∈ db.librarySourcePathz.rows then some db else db.insertPath row

def upsertSource (source : LibrarySource) : Option (Database × LibrarySource) := do
  match db.librarySourcez.rows.find? fun old =>
      old.volumeKey = source.volumeKey && old.relativePath = source.relativePath with
  | some old =>
    let renew (row : LibrarySource) : LibrarySource :=
      { row with
        label := source.label
        lastKnownPath := source.lastKnownPath
        domain := source.domain }
    let sources := db.librarySourcez.update (·.id = old.id) renew fun _ => rfl
    some ({ db with librarySourcez := sources }, renew old)
  | none =>
    let sources ← db.librarySourcez.insert source
    some ({ db with librarySourcez := sources }, source)

/-- The mount and the root are canonical, and the id is the one that a new row is given. -/
def saveSource (id : String) (volume : RemovableVolume) (key : String) (mount root : Names)
    (domain : SourceDomain) : Option (Database × LibrarySource) := do
  let relative ← root.stripPrefix mount
  let (db, source) ← db.upsertSource
    { id
      volumeKey := key
      volumeUuid := volume.uuid
      partitionUuid := volume.partitionUuid
      label := volume.label
      relativePath := relative.relative
      lastKnownPath := root.absolute
      domain }
  let db ← db.insertPathOrIgnore ⟨source.id, root.absolute⟩
  some (db, source)

variable {db}

variable {next : Database}

theorem insertSourceMedia_eq {orIgnore : Bool} {row : SourceMedia}
    (done : db.insertSourceMedia orIgnore row = some next) :
    ∃ medias, next = { db with librarySourceMediaz := medias } := by
  unfold insertSourceMedia at done
  split at done
  · split at done
    · exact ⟨_, (Option.some.inj done).symm⟩
    · split at done
      · exact ⟨db.librarySourceMediaz, (Option.some.inj done).symm⟩
      · cases done
  · cases done

theorem insertFromView_eq {orIgnore : Bool} {p : SourceMedia → Bool}
    (done : db.insertFromView orIgnore p = some next) :
    ∃ medias, next = { db with librarySourceMediaz := medias } := by
  unfold insertFromView at done
  generalize db.librarySourceBlobPathView.filter p = rows at done
  induction rows generalizing db with
  | nil => exact ⟨db.librarySourceMediaz, (Option.some.inj done).symm⟩
  | cons row rest ih =>
    rw [List.foldlM_cons] at done
    obtain ⟨between, first, later⟩ := Option.bind_eq_some_iff.mp done
    obtain ⟨medias, rfl⟩ := insertSourceMedia_eq first
    obtain ⟨medias', rfl⟩ := ih later
    exact ⟨medias', rfl⟩

theorem insertPathOrIgnore_eq {row : SourcePath} (done : db.insertPathOrIgnore row = some next) :
    ∃ paths medias, next =
      { db with librarySourcePathz := paths, librarySourceMediaz := medias } := by
  unfold insertPathOrIgnore at done
  split at done
  · exact ⟨db.librarySourcePathz, db.librarySourceMediaz, (Option.some.inj done).symm⟩
  · obtain ⟨paths, _, done⟩ := Option.bind_eq_some_iff.mp done
    dsimp only at done
    split at done
    · obtain ⟨medias, rfl⟩ := insertFromView_eq done
      exact ⟨paths, medias, rfl⟩
    · cases done

theorem upsertSource_spec {source stored : LibrarySource}
    (done : db.upsertSource source = some (next, stored)) :
    stored ∈ next.librarySourcez ∧ stored.relativePath = source.relativePath ∧
      stored.lastKnownPath = source.lastKnownPath := by
  unfold upsertSource at done
  split at done
  · rename_i old found
    cases Option.some.inj done
    have same := List.find?_some found
    rw [Bool.and_eq_true, decide_eq_true_eq, decide_eq_true_eq] at same
    refine ⟨?_, same.2, rfl⟩
    rw [Table.mem_update]
    exact ⟨old, List.mem_of_find?_eq_some found, if_pos (decide_eq_true rfl)⟩
  · obtain ⟨sources, inserted, done⟩ := Option.bind_eq_some_iff.mp done
    cases Option.some.inj done
    exact ⟨(Table.insert_eq_some _ _ _ inserted _).mpr (.inr rfl), rfl, rfl⟩

/-- What is registered is stored, and its root is the mount with the relative path behind it. -/
theorem saveSource_spec {id key : String} {volume : RemovableVolume} {mount root : Names}
    {domain : SourceDomain} {source : LibrarySource}
    (saved : db.saveSource id volume key mount root domain = some (next, source)) :
    source ∈ next.librarySourcez ∧ source.lastKnownPath = root.absolute ∧
      ∃ relative : Names, root.list = mount.list ++ relative.list ∧
        source.relativePath = relative.relative := by
  obtain ⟨relative, stripped, saved⟩ := Option.bind_eq_some_iff.mp saved
  obtain ⟨⟨between, stored⟩, upserted, saved⟩ := Option.bind_eq_some_iff.mp saved
  obtain ⟨last, recorded, saved⟩ := Option.bind_eq_some_iff.mp saved
  cases Option.some.inj saved
  obtain ⟨paths, medias, rfl⟩ := insertPathOrIgnore_eq recorded
  obtain ⟨present, sameRelative, sameRoot⟩ := upsertSource_spec upserted
  refine ⟨present, sameRoot, relative, ?_, sameRelative⟩
  unfold Names.stripPrefix at stripped
  split at stripped
  · rename_i begins
    cases Option.some.inj stripped
    exact (List.prefix_iff_eq_append.mp begins).symm
  · cases stripped

end Database

end Tomb.Grimoire.ExternalStorage
