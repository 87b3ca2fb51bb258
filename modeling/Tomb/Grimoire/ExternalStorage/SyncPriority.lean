import Tomb.Grimoire.ExternalStorage.Sources

/-! Which sources are reserved for sync: as the app asks with paths, and as a view asks with
texts. -/
namespace Tomb.Grimoire.ExternalStorage
open Tomb.Lib

inductive Component where
  | rootDir
  | curDir
  | parentDir
  | normal (name : List Char)
  deriving DecidableEq

def component (piece : List Char) : Component :=
  if piece = ['.', '.'] then .parentDir else .normal piece

def components (path : List Char) : List Component :=
  let names := ((spelled path).filter isName).map component
  if path.head? = some '/' then .rootDir :: names
  else if (spelled path).head? = some ['.'] then .curDir :: names
  else names

def parent (path : List Component) : Option (List Component) :=
  match path.getLast? with
  | none | some .rootDir => none
  | some _ => some path.dropLast

def nthAncestor (path : List Component) : Nat → Option (List Component)
  | 0 => some path
  | n + 1 => (nthAncestor path n).bind parent

def overlappingPaths (first second : List Char) : Bool :=
  (components second).isPrefixOf (components first) || (components first).isPrefixOf (components second)

def eqIgnoreAsciiCase (first second : String) : Bool :=
  first.toList.map Char.toLower = second.toList.map Char.toLower

def sameUuid (first second : Option String) : Bool :=
  match first, second with
  | some first, some second => eqIgnoreAsciiCase first second
  | _, _ => false

def isSyncSource (targets : List SyncTarget) (source : LibrarySource) : Bool :=
  let path := components source.lastKnownPath.chars
  let mount := (nthAncestor path (components source.relativePath.chars).length).getD path
  targets.any fun target =>
    sameUuid target.volumeUuid source.volumeUuid ||
      mount.isPrefixOf (components target.path.chars) ||
      (components target.path.chars).isPrefixOf mount

namespace Database

variable (db : Database)

def listTargets : List SyncTarget := db.storageSyncTargetz.rows.map (·.target)

def uuidMatches (first second : Option String) : Bool :=
  match first, second with
  | some first, some second => Sqlite.nocaseEq first.toList second.toList
  | _, _ => false

def mountPath (source : LibrarySource) : List Char :=
  if source.relativePath.chars = [] then source.lastKnownPath.chars
  else
    Sqlite.substr source.lastKnownPath.chars 1
      (Sqlite.length source.lastKnownPath.chars - Sqlite.length source.relativePath.chars - 1)

def reserves (target : SyncTarget) (source : LibrarySource) : Bool :=
  uuidMatches target.volumeUuid source.volumeUuid ||
    target.path.chars = mountPath source ||
    liesBelow (mountPath source) target.path.chars ||
    liesBelow target.path.chars (mountPath source)

def librarySyncSourceView : List String :=
  (db.librarySourcez.rows.filter fun source =>
    db.storageSyncTargetz.rows.any fun row => reserves row.target source).map (·.id)

end Database

def Comparable {α : Type} (first second : List α) : Prop := first <+: second ∨ second <+: first

section Comparable

variable {α : Type} {names pieces : List α}

theorem comparable_filter_iff {p : α → Bool} (proper : ∀ name ∈ names, p name = true) :
    Comparable names pieces ↔ Comparable names (pieces.filter p) ∧
      ∀ piece ∈ pieces.take names.length, p piece = true := by
  constructor
  · rintro (begins | begins)
    · obtain ⟨rest, rfl⟩ := begins
      rw [List.filter_append, List.filter_eq_self.mpr proper, List.take_left]
      exact ⟨.inl (List.prefix_append _ _), proper⟩
    · have all : ∀ piece ∈ pieces, p piece = true := fun piece member =>
        proper piece (begins.subset member)
      rw [List.filter_eq_self.mpr all]
      exact ⟨.inr begins, fun piece member => all piece (List.mem_of_mem_take member)⟩
  · rintro ⟨comparable, plain⟩
    have parts : pieces.filter p =
        pieces.take names.length ++ (pieces.drop names.length).filter p := by
      conv_lhs => rw [← List.take_append_drop names.length pieces]
      rw [List.filter_append, List.filter_eq_self.mpr plain]
    have ahead : pieces.take names.length <+: pieces.filter p := ⟨_, parts.symm⟩
    have length_take : (pieces.take names.length).length ≤ names.length := List.length_take_le _ _
    have below : pieces.take names.length <+: names := by
      rcases comparable with begins | begins
      · exact List.prefix_of_prefix_length_le ahead begins length_take
      · exact ahead.trans begins
    by_cases long : names.length ≤ pieces.length
    · have whole : pieces.take names.length = names := by
        refine below.eq_of_length ?_
        rw [List.length_take, Nat.min_eq_left long]
      exact .inl (whole ▸ List.take_prefix _ _)
    · rw [List.take_of_length_le (Nat.le_of_not_le long)] at below
      exact .inr below

end Comparable

section Components

theorem component_injective : Function.Injective component := by
  intro a b same
  unfold component at same
  split at same <;> split at same
  · rename_i dotsA dotsB
    rw [dotsA, dotsB]
  · cases same
  · cases same
  · exact Component.normal.inj same

theorem component_proper {name : List Char} (proper : isProper name = true) :
    component name = .normal name :=
  if_neg (isProper_iff.mp proper).2.1

@[grind =] def named (path : List Char) : List (List Char) := (spelled path).filter isName

theorem components_absolute {path : List Char} (absolute : path.head? = some '/') :
    components path = .rootDir :: (named path).map component := by
  rw [components, if_pos absolute]
  rfl

theorem named_absolute (names : Names) : named names.absolute.chars = names.list := by
  have all : names.list.filter isName = names.list :=
    List.filter_eq_self.mpr fun name listed => (isProper_iff.mp (names.proper name listed)).1
  by_cases some : names.list = []
  · rw [some, named, names.absolute_nil some]
    rfl
  · rw [named, names.spelled_absolute some, List.filter_cons_of_neg (by decide), all]

theorem components_relative (names : Names) :
    components names.relative.chars = names.list.map component := by
  cases listed : names.list with
  | nil =>
    have empty : names.relative.chars = [] := names.joined_nil listed
    rw [empty]
    rfl
  | cons first rest =>
    have pieces := names.spelled_joined (by rw [listed]; exact List.cons_ne_nil _ _)
    have proper := isProper_iff.mp (names.proper first (listed ▸ List.mem_cons_self))
    have all : names.list.filter isName = names.list :=
      List.filter_eq_self.mpr fun name listed => (isProper_iff.mp (names.proper name listed)).1
    have relative : names.relative.chars.head? ≠ some '/' := by
      intro absolute
      obtain ⟨path, slashed⟩ := List.head?_eq_some_iff.mp absolute
      have split := congrArg spelled slashed
      rw [spelled_slash] at split
      have same := pieces.symm.trans split
      rw [listed] at same
      have empty := (List.cons.inj same).1
      rw [empty] at proper
      cases proper.1
    rw [components, if_neg relative]
    have dotless : ¬(spelled names.relative.chars).head? = some ['.'] := by
      change ¬(spelled names.joined).head? = some ['.']
      rw [pieces, listed, List.head?_cons]
      intro dot
      rw [Option.some.inj dot] at proper
      cases proper.1
    rw [if_neg dotless]
    change ((spelled names.joined).filter isName).map component = _
    rw [pieces, all, listed]

theorem parent_names {names : List (List Char)} (some : names ≠ []) :
    parent (.rootDir :: names.map component) = Option.some (.rootDir :: names.dropLast.map component) := by
  have last : (Component.rootDir :: names.map component).getLast? =
      Option.some (component (names.getLast some)) := by
    rw [List.getLast?_cons, List.getLast?_map, List.getLast?_eq_some_getLast some]
    rfl
  have inside : component (names.getLast some) ≠ .rootDir := by
    unfold component
    split <;> exact Component.noConfusion
  unfold parent
  split
  · rename_i none
    rw [last] at none
    cases none
  · rename_i top
    rw [last] at top
    exact absurd (Option.some.inj top) inside
  · rw [List.dropLast_cons_of_ne_nil (by simpa using some), List.map_dropLast]

theorem nthAncestor_names {names : List (List Char)} {n : Nat} (enough : n ≤ names.length) :
    nthAncestor (.rootDir :: names.map component) n =
      some (.rootDir :: (names.take (names.length - n)).map component) := by
  induction n with
  | zero => rw [nthAncestor, Nat.sub_zero, List.take_length]
  | succ n ih =>
    have more : names.take (names.length - n) ≠ [] := by
      rw [ne_eq, ← List.length_eq_zero_iff, List.length_take]
      omega
    have one_less : min (min (names.length - n) names.length - 1) (names.length - n) =
        names.length - (n + 1) := by omega
    rw [nthAncestor, ih (Nat.le_of_succ_le enough), Option.bind_some, parent_names more,
      List.dropLast_eq_take, List.length_take, List.take_take, one_less]

end Components

section Overlap

def inner (path : List Char) : List (List Char) := (spelled (directory path)).tail

variable {path : List Char}

theorem spelled_directory (absolute : path.head? = some '/') :
    spelled (directory path) = [] :: inner path := by
  obtain ⟨rest, slashed⟩ := List.head?_eq_some_iff.mp absolute
  have pieces : spelled path = [] :: spelled rest := by
    rw [slashed, spelled_slash]
  rcases root_eq_directory path with same | concat
  · rw [inner, ← same, pieces]
    rfl
  · have split := spelled_concat (directory path)
    rw [← concat, pieces] at split
    cases parts : spelled (directory path) with
    | nil => exact absurd parts (List.splitOn_ne_nil '/' _)
    | cons first others =>
      rw [parts, List.cons_append] at split
      rw [inner, parts, ← (List.cons.inj split).1]
      rfl

theorem spelled_eq_inner (absolute : path.head? = some '/') :
    spelled path = [] :: inner path ∨ spelled path = [] :: (inner path ++ [[]]) := by
  have pieces := spelled_directory absolute
  rcases root_eq_directory path with same | concat
  · exact .inl (by rw [← pieces, ← same])
  · refine .inr ?_
    nth_rewrite 1 [concat]
    rw [spelled_concat, pieces, List.cons_append]

theorem named_eq_inner (absolute : path.head? = some '/') :
    named path = (inner path).filter isName := by
  rw [named]
  rcases spelled_eq_inner absolute with same | concat
  · rw [same, List.filter_cons_of_neg (by decide)]
  · rw [concat, List.filter_cons_of_neg (by decide), List.filter_append,
      List.filter_cons_of_neg (by decide), List.filter_nil, List.append_nil]

def textOverlap (mount path : List Char) : Prop := path = mount ∨ Below mount path ∨ Below path mount

theorem textOverlap_iff {mount : Names} (named : mount.list ≠ [])
    (absolute : path.head? = some '/') :
    textOverlap mount.absolute.chars path ↔ Comparable mount.list (inner path) := by
  have posix : mount.absolute.chars.head? = some '/' := rfl
  have proper : [] ∉ mount.list := by
    intro member
    cases mount.proper [] member
  have begins (start : [] :: mount.list <+: spelled path) : mount.list <+: inner path := by
    rcases spelled_eq_inner absolute with same | concat
    · rw [same] at start
      exact (List.cons_prefix_cons.mp start).2
    · rw [concat] at start
      rcases List.prefix_concat_iff.mp (List.cons_prefix_cons.mp start).2 with whole | part
      · exact absurd (whole ▸ List.mem_append_right _ List.mem_cons_self) proper
      · exact part
  have reaches (start : mount.list <+: inner path) :
      path = mount.absolute.chars ∨
        ∃ more, more ≠ [] ∧ spelled path = [] :: mount.list ++ more := by
    obtain ⟨rest, parts⟩ := start
    rcases spelled_eq_inner absolute with same | concat
    · cases rest with
      | nil =>
        rw [List.append_nil] at parts
        refine .inl (Text.splitOn_injective '/' ?_)
        rw [← parts] at same
        exact same.trans (mount.spelled_absolute named).symm
      | cons first rest =>
        exact .inr ⟨first :: rest, List.cons_ne_nil _ _, by rw [same, ← parts, List.cons_append]⟩
    · refine .inr ⟨rest ++ [[]], by simp, ?_⟩
      rw [concat, ← parts, List.append_assoc, List.cons_append]
  unfold textOverlap
  rw [below_iff_spelled posix, below_iff_spelled absolute, mount.directory_absolute named,
    mount.spelled_absolute named, spelled_directory absolute]
  constructor
  · rintro (same | ⟨more, _, goes⟩ | ⟨more, _, goes⟩)
    · refine .inl (begins ?_)
      rw [same, mount.spelled_absolute named]
    · exact .inl (begins ⟨more, goes.symm⟩)
    · exact .inr ⟨more, (List.cons.inj goes).2.symm⟩
  · rintro (start | ⟨rest, parts⟩)
    · exact (reaches start).imp_right .inl
    · cases rest with
      | nil =>
        rw [List.append_nil] at parts
        exact (reaches (parts ▸ List.prefix_refl _)).imp_right .inl
      | cons first rest =>
        exact .inr (.inr ⟨first :: rest, List.cons_ne_nil _ _, by rw [← parts, List.cons_append]⟩)

theorem textOverlap_top {mount : List Char} (top : mount = [] ∨ mount = ['/'])
    (absolute : path.head? = some '/') : textOverlap mount path := by
  obtain ⟨rest, slashed⟩ := List.head?_eq_some_iff.mp absolute
  refine .inr (.inl ⟨[], '/', rest, isSeparator_iff.mpr (.inl rfl), slashed, top⟩)

end Overlap

/-- As far as the names of the mount reach, the path has no doubled separator and no dot. -/
def plainTo (mount : Names) (path : List Char) : Bool :=
  ((inner path).take mount.list.length).all isName

/-- A target whose path overlaps the mount names the volume or spells it plainly, or another target
does, and a uuid that agrees as far as a NUL agrees behind it, or a target reserves the source. -/
structure PlainlyTargeted (mount : Names) (volumeUuid : Option String) (targets : List SyncTarget) :
    Prop where
  paths : (∃ target ∈ targets, overlappingPaths target.path.chars mount.absolute.chars = true ∧
      ¬plainTo mount target.path.chars = true) →
    ∃ target ∈ targets, Database.uuidMatches target.volumeUuid volumeUuid = true ∨
      overlappingPaths target.path.chars mount.absolute.chars = true ∧
        plainTo mount target.path.chars = true
  uuids : (∃ target ∈ targets, Database.uuidMatches target.volumeUuid volumeUuid = true ∧
      ¬sameUuid target.volumeUuid volumeUuid = true) →
    ∃ target ∈ targets, sameUuid target.volumeUuid volumeUuid = true ∨
      overlappingPaths target.path.chars mount.absolute.chars = true

section Agreement

/-- The root of the source is the mount with the relative path behind it. -/
def Placed (mount : Names) (source : LibrarySource) : Prop :=
  ∃ root relative : Names, root.list = mount.list ++ relative.list ∧
    source.lastKnownPath = root.absolute ∧ source.relativePath = relative.relative

variable {mount : Names}

theorem overlappingPaths_iff {path : List Char} (absolute : path.head? = some '/') :
    overlappingPaths path mount.absolute.chars = true ↔ Comparable mount.list (named path) := by
  rw [overlappingPaths, components_absolute absolute,
    @components_absolute mount.absolute.chars rfl,
    named_absolute, Bool.or_eq_true, List.isPrefixOf_iff_prefix, List.isPrefixOf_iff_prefix,
    List.cons_prefix_cons, List.cons_prefix_cons, List.prefix_map_iff_of_injective component_injective,
    List.prefix_map_iff_of_injective component_injective]
  simp only [true_and]
  exact Iff.rfl

variable {source : LibrarySource}

theorem isSyncSource_iff (placed : Placed mount source)
    (targets : List SyncTarget) : isSyncSource targets source = true ↔
      ∃ target ∈ targets, sameUuid target.volumeUuid source.volumeUuid = true ∨
        overlappingPaths target.path.chars mount.absolute.chars = true := by
  obtain ⟨root, relative, parts, sameRoot, sameRelative⟩ := placed
  have path : components source.lastKnownPath.chars = .rootDir :: root.list.map component := by
    rw [sameRoot, @components_absolute root.absolute.chars rfl, named_absolute]
  have count : (components source.relativePath.chars).length = relative.list.length := by
    rw [sameRelative, components_relative, List.length_map]
  have lengths : root.list.length = mount.list.length + relative.list.length := by
    rw [parts, List.length_append]
  have front : root.list.take (root.list.length - relative.list.length) = mount.list := by
    rw [lengths, Nat.add_sub_cancel, parts, List.take_left]
  have ancestor : nthAncestor (components source.lastKnownPath.chars)
      (components source.relativePath.chars).length = some (components mount.absolute.chars) := by
    rw [path, count, nthAncestor_names (by omega), front,
      @components_absolute mount.absolute.chars rfl, named_absolute]
  unfold isSyncSource
  simp only [ancestor, Option.getD_some, List.any_eq_true, Bool.or_eq_true, overlappingPaths, or_assoc]

theorem mountPath_placed (placed : Placed mount source) :
    mount.list = [] ∧ (Database.mountPath source = [] ∨ Database.mountPath source = ['/']) ∨
      mount.list ≠ [] ∧ Database.mountPath source = mount.absolute.chars := by
  obtain ⟨root, relative, parts, sameRoot, sameRelative⟩ := placed
  unfold Database.mountPath
  rw [sameRoot, sameRelative]
  by_cases whole : relative.list = []
  · have empty : relative.relative.chars = [] := relative.joined_nil whole
    rw [if_pos empty]
    rw [whole, List.append_nil] at parts
    by_cases top : mount.list = []
    · exact .inl ⟨top, .inr (root.absolute_nil (parts.trans top))⟩
    · refine .inr ⟨top, ?_⟩
      change '/' :: root.joined = '/' :: mount.joined
      rw [Names.joined, Names.joined, parts]
  · have folder : relative.relative.chars ≠ [] := by
      intro empty
      have pieces := relative.spelled_joined whole
      have first : [] ∈ relative.list := by
        rw [← pieces]
        change [] ∈ spelled relative.relative.chars
        rw [empty]
        exact List.mem_singleton_self _
      cases relative.proper [] first
    rw [if_neg folder, Sqlite.substr, Sqlite.substrFrom, Sqlite.length, Sqlite.length,
      Sqlite.upToNul_eq root.absolute.noNul, Sqlite.upToNul_eq relative.relative.noNul, Nat.sub_self,
      List.drop_zero]
    change mount.list = [] ∧ (List.take (('/' :: root.joined).length - relative.joined.length - 1)
      ('/' :: root.joined) = [] ∨ _) ∨ _ ∧ List.take
        (('/' :: root.joined).length - relative.joined.length - 1) ('/' :: root.joined) = _
    by_cases top : mount.list = []
    · have same : root.joined = relative.joined := by
        rw [Names.joined, parts, top, List.nil_append]
        rfl
      refine .inl ⟨top, .inl ?_⟩
      rw [same, List.length_cons, Nat.add_sub_cancel_left, Nat.sub_self, List.take_zero]
    · have goes : root.joined = mount.joined ++ '/' :: relative.joined := by
        rw [Names.joined, parts, Text.intercalate_append '/' top whole]
        rfl
      refine .inr ⟨top, ?_⟩
      have count : ('/' :: root.joined).length - relative.joined.length - 1 =
          ('/' :: mount.joined).length := by
        rw [goes, List.length_cons, List.length_append, List.length_cons, List.length_cons]
        omega
      rw [count, goes, ← List.cons_append, List.take_left]
      rfl

/-- The view reserves a source for a target that overlaps its mount and is spelled plainly. -/
theorem reserves_iff (placed : Placed mount source)
    {target : SyncTarget} (accepted : target.accepted = true) :
    Database.reserves target source = true ↔
      Database.uuidMatches target.volumeUuid source.volumeUuid = true ∨
        overlappingPaths target.path.chars mount.absolute.chars = true ∧
          plainTo mount target.path.chars = true := by
  have absolute : target.path.chars.head? = some '/' := by
    rw [SyncTarget.accepted, Bool.and_eq_true, Bool.and_eq_true] at accepted
    exact of_decide_eq_true accepted.1.2
  have overlap : overlappingPaths target.path.chars mount.absolute.chars = true ∧
      plainTo mount target.path.chars = true ↔ Comparable mount.list (inner target.path.chars) := by
    rw [overlappingPaths_iff absolute, named_eq_inner absolute, plainTo, List.all_eq_true]
    exact (comparable_filter_iff fun name listed => (isProper_iff.mp (mount.proper name listed)).1).symm
  have texts : Comparable mount.list (inner target.path.chars) ↔
      textOverlap (Database.mountPath source) target.path.chars := by
    rcases mountPath_placed placed with ⟨top, spelling⟩ | ⟨named, same⟩
    · rw [top]
      exact ⟨fun _ => textOverlap_top spelling absolute, fun _ => .inl List.nil_prefix⟩
    · rw [same, textOverlap_iff named absolute]
  have noNul : '\x00' ∉ Database.mountPath source := by
    rcases mountPath_placed placed with ⟨_, empty | slash⟩ | ⟨_, same⟩
    · rw [empty]
      exact List.not_mem_nil
    · rw [slash]
      decide
    · rw [same]
      exact mount.absolute.noNul
  rw [overlap, texts, textOverlap, Database.reserves, Bool.or_eq_true, Bool.or_eq_true, Bool.or_eq_true,
    decide_eq_true_eq, liesBelow_iff noNul target.path.noNul, liesBelow_iff target.path.noNul noNul,
    or_assoc, or_assoc]

theorem uuidMatches_of_sameUuid {first second : Option String} (same : sameUuid first second = true) :
    Database.uuidMatches first second = true := by
  cases first with
  | none => cases same
  | some first =>
    cases second with
    | none => cases same
    | some second => exact Sqlite.nocaseEq_of_map_toLower (of_decide_eq_true same)

/-- For a source that was registered, the view and the app agree under whatever targets were accepted
just when the targets are spelled plainly where it matters. -/
theorem sync_source_agrees_iff {db next : Database} {id key : String} {volume : RemovableVolume}
    {mount root : Names} {domain : SourceDomain} {source : LibrarySource}
    (saved : db.saveSource id volume key mount root domain = some (next, source))
    (targets : Table fun row : StorageSyncTarget => (row.owner, row.target.deviceId)) :
    let later := { next with storageSyncTargetz := targets }
    (source.id ∈ later.librarySyncSourceView ↔ isSyncSource later.listTargets source = true) ↔
      PlainlyTargeted mount source.volumeUuid later.listTargets := by
  intro later
  obtain ⟨stored, sameRoot, relative, parts, sameRelative⟩ := Database.saveSource_spec saved
  have placed : Placed mount source := ⟨root, relative, parts, sameRoot, sameRelative⟩
  have listed : source.id ∈ later.librarySyncSourceView ↔
      ∃ target ∈ later.listTargets, Database.uuidMatches target.volumeUuid source.volumeUuid = true ∨
        overlappingPaths target.path.chars mount.absolute.chars = true ∧
          plainTo mount target.path.chars = true := by
    rw [Database.librarySyncSourceView, List.mem_map]
    constructor
    · rintro ⟨other, member, same⟩
      obtain ⟨present, reserved⟩ := List.mem_filter.mp member
      have whole : other = source := Table.eq_of_key_eq _ present stored same
      rw [whole] at reserved
      obtain ⟨row, registered, reserved⟩ := List.any_eq_true.mp reserved
      exact ⟨row.target, List.mem_map.mpr ⟨row, registered, rfl⟩,
        (reserves_iff placed row.isAccepted).mp reserved⟩
    · rintro ⟨target, registered, reserved⟩
      obtain ⟨row, kept, rfl⟩ := List.mem_map.mp registered
      refine ⟨source, List.mem_filter.mpr ⟨stored, List.any_eq_true.mpr ⟨row, kept, ?_⟩⟩, rfl⟩
      exact (reserves_iff placed row.isAccepted).mpr reserved
  rw [listed, isSyncSource_iff placed]
  constructor
  · intro agree
    constructor
    · rintro ⟨target, registered, overlaps, _⟩
      exact agree.mpr ⟨target, registered, .inr overlaps⟩
    · rintro ⟨target, registered, matched, _⟩
      exact agree.mp ⟨target, registered, .inl matched⟩
  · intro plain
    constructor
    · rintro ⟨target, registered, matched | ⟨overlaps, _⟩⟩
      · by_cases same : sameUuid target.volumeUuid source.volumeUuid = true
        · exact ⟨target, registered, .inl same⟩
        · exact plain.uuids ⟨target, registered, matched, same⟩
      · exact ⟨target, registered, .inr overlaps⟩
    · rintro ⟨target, registered, same | overlaps⟩
      · exact ⟨target, registered, .inl (uuidMatches_of_sameUuid same)⟩
      · by_cases straight : plainTo mount target.path.chars = true
        · exact ⟨target, registered, .inr ⟨overlaps, straight⟩⟩
        · exact plain.paths ⟨target, registered, overlaps, straight⟩

/-- A folder of a disk, and a registration of a folder beside it. -/
theorem plain_target_agrees :
    let mount : Names := ⟨[['m'], ['d']], by decide⟩
    let root : Names := ⟨[['m'], ['d'], ['v']], by decide⟩
    let path : Path := ⟨['/', 'm', '/', 'd', '/', 'w'], by decide⟩
    let targets := ⟨[⟨"charnel", ⟨"phone", none, path⟩, by decide⟩], List.nodup_singleton _⟩
    ∃ (next : Database) (source : LibrarySource),
      (∅ : Database).saveSource "usb" ⟨none, none, none⟩ "key" mount root .both = some (next, source) ∧
      ((source.id ∈ { next with storageSyncTargetz := targets }.librarySyncSourceView ↔
        isSyncSource { next with storageSyncTargetz := targets }.listTargets source = true) ↔
          PlainlyTargeted mount source.volumeUuid
            { next with storageSyncTargetz := targets }.listTargets) := by
  intro mount root path targets
  have saved : (∅ : Database).saveSource "usb" ⟨none, none, none⟩ "key" mount root .both =
      some (_, _) := rfl
  exact ⟨_, _, saved, sync_source_agrees_iff saved targets⟩

/-- With a doubled separator the app sees the mount in the path and the view does not. -/
theorem doubled_separator_disagrees :
    ¬∀ (db next : Database) (id key : String) (volume : RemovableVolume) (mount root : Names)
      (domain : SourceDomain) (source : LibrarySource)
      (targets : Table fun row : StorageSyncTarget => (row.owner, row.target.deviceId)),
      db.saveSource id volume key mount root domain = some (next, source) →
        (source.id ∈ { next with storageSyncTargetz := targets }.librarySyncSourceView ↔
          isSyncSource { next with storageSyncTargetz := targets }.listTargets source = true) := by
  intro agree
  let mount : Names := ⟨[['m'], ['d']], by decide⟩
  let path : Path := ⟨['/', 'm', '/', '/', 'd'], by decide⟩
  have disk := agree ∅ _ "usb" "key" ⟨none, none, none⟩ mount mount .both _
    ⟨[⟨"charnel", ⟨"phone", none, path⟩, by decide⟩], List.nodup_singleton _⟩ rfl
  exact absurd (disk.mpr (by decide)) (by decide)

end Agreement

end Tomb.Grimoire.ExternalStorage
