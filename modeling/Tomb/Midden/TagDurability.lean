import Tomb.Lib.Runs
import Tomb.Midden.ManifestJson

/-! When the tags outlive the process. The manifest is rewritten in place and the tags in memory
change before it, so a stop within a write or a refused write leaves what no command asked for; and
a tag whose name is no UTF-8 is read back under another name. -/
namespace Tomb.Midden
open Tomb.Lib

theorem applyOps_all (bytes : List UInt8) (file : Option (List UInt8)) :
    applyOps bytes persistOps file = some bytes := by
  simp only [applyOps, persistOps, List.foldl_cons, List.foldl_nil, StorageOp.apply,
    Option.getD_some, List.drop_nil, List.append_nil]

theorem formatFromStr_formatToStr (format : BlobFormat) :
    formatFromStr (formatToStr format) = format := by
  cases format <;> rfl

def Named (tags : Table TagRow.tag) : Prop := ∀ row ∈ tags.rows, Utf8.isUtf8 row.tag = true

namespace ManifestText

variable (text : ManifestText)

def written (row : TagRow) : ManifestRow :=
  ⟨Utf8.fromUtf8Lossy row.tag, text.toHex row.value.hash, formatToStr row.value.format⟩

def readRow (row : ManifestRow) : Option TagRow :=
  (text.parseHash row.hashHex).map fun hash => ⟨row.name.val, hash, formatFromStr row.format⟩

theorem readRow_written {row : TagRow} (valid : Utf8.isUtf8 row.tag = true) :
    text.readRow (text.written row) = some row := by
  simp only [readRow, written, text.parseHash_toHex, Option.map_some,
    Utf8.fromUtf8Lossy_of_valid valid, formatFromStr_formatToStr]

theorem mem_manifest {tags : Table TagRow.tag} (named : Named tags) (row : ManifestRow) :
    row ∈ text.manifest tags ↔ ∃ tag ∈ tags, text.written tag = row := by
  have names : ((tags.rows.map text.written).map fun row => row.name.val) =
      tags.rows.map TagRow.tag := by
    rw [List.map_map]
    exact List.map_congr_left fun row member => Utf8.fromUtf8Lossy_of_valid (named row member)
  have distinct : ((tags.rows.map text.written).map ManifestRow.name).Nodup := by
    refine List.Nodup.of_map Subtype.val ?_
    rw [List.map_map]
    exact names ▸ tags.unique
  exact (Table.mem_collect distinct row).trans List.mem_map

theorem names_readRow_sublist (rows : List ManifestRow) :
    ((rows.filterMap text.readRow).map TagRow.tag).Sublist (rows.map fun row => row.name.val) := by
  induction rows with
  | nil => exact List.Sublist.slnil
  | cons row rows ih =>
    cases read : text.readRow row with
    | none =>
      rw [List.filterMap_cons_none read, List.map_cons]
      exact ih.cons _
    | some tag =>
      obtain ⟨hash, -, rfl⟩ := Option.map_eq_some_iff.mp read
      rw [List.filterMap_cons_some read, List.map_cons, List.map_cons]
      exact ih.cons_cons _

theorem distinct_readRow (manifest : TagsManifest) :
    ((manifest.rows.filterMap text.readRow).map TagRow.tag).Nodup := by
  have names : (manifest.rows.map fun row => row.name.val).Nodup := by
    have unique := manifest.unique.map Subtype.val_injective
    rwa [List.map_map] at unique
  exact names.sublist (text.names_readRow_sublist manifest.rows)

theorem mem_loadTags {bytes : List UInt8} {manifest : TagsManifest}
    (parsed : text.fromSlice bytes = some manifest) (row : TagRow) :
    row ∈ text.loadTags (some bytes) ↔ ∃ read ∈ manifest, text.readRow read = some row := by
  have long : 0 < bytes.length := by
    refine List.length_pos_iff.mpr fun empty => ?_
    rw [empty, text.fromSlice_nil] at parsed
    cases parsed
  rw [loadTags]
  simp only [if_pos long, parsed]
  exact (Table.mem_collect (text.distinct_readRow manifest) row).trans List.mem_filterMap

theorem loadTags_eq_empty {bytes : List UInt8} (broken : text.fromSlice bytes = none) :
    text.loadTags (some bytes) = ∅ := by
  rw [loadTags]
  split
  · rw [broken]
  · rfl

theorem named_loadTags (file : Option (List UInt8)) : Named (text.loadTags file) := by
  cases file with
  | none => exact fun row member => absurd member List.not_mem_nil
  | some bytes =>
    intro row member
    cases parsed : text.fromSlice bytes with
    | none =>
      rw [text.loadTags_eq_empty parsed] at member
      exact absurd member List.not_mem_nil
    | some manifest =>
      obtain ⟨read, -, here⟩ := (text.mem_loadTags parsed row).mp member
      obtain ⟨hash, -, rfl⟩ := Option.map_eq_some_iff.mp here
      exact read.name.property

theorem loadTags_toVec {tags : Table TagRow.tag} (named : Named tags) :
    (text.loadTags (some (text.toVec (text.manifest tags)))).Same tags := by
  obtain ⟨back, parsed, same⟩ := text.fromSlice_toVec (text.manifest tags)
  intro row
  rw [text.mem_loadTags parsed]
  constructor
  · rintro ⟨read, member, here⟩
    obtain ⟨tag, known, rfl⟩ := (text.mem_manifest named read).mp ((same read).mp member)
    rw [text.readRow_written (named tag known)] at here
    cases here
    exact known
  · intro known
    have member := (same _).mpr ((text.mem_manifest named _).mpr ⟨row, known, rfl⟩)
    exact ⟨text.written row, member, text.readRow_written (named row known)⟩

theorem loadTags_opened (file : Option (List UInt8)) :
    text.loadTags (some (file.getD [])) = text.loadTags file := by
  cases file with
  | none => exact text.loadTags_eq_empty text.fromSlice_nil
  | some bytes => rfl

theorem loadTags_crashed {done : Nat} (early : done ≤ 1) (bytes : List UInt8)
    (file : Option (List UInt8)) :
    text.loadTags (applyOps bytes (persistOps.take done) file) = text.loadTags file := by
  match done, early with
  | 0, _ => rfl
  | 1, _ => exact text.loadTags_opened file

theorem applyOps_late {done : Nat} (late : 3 ≤ done) (bytes : List UInt8)
    (file : Option (List UInt8)) : applyOps bytes (persistOps.take done) file = some bytes := by
  match done, late with
  | 3, _ => exact applyOps_all bytes file
  | done + 4, _ =>
    rw [List.take_of_length_le (Nat.le_add_left 4 done)]
    exact applyOps_all bytes file

end ManifestText

namespace TagCommand

def Keeps (tags : Table TagRow.tag) : TagCommand → Prop
  | .setTag name value => ⟨name, value⟩ ∈ tags.rows
  | .createTag _ _ => False
  | .deleteTags from_ to_ => ∀ row ∈ tags.rows, inRange from_ to_ row.tag = false
  | .renameTag from_ to_ => from_ = to_

instance (tags : Table TagRow.tag) : (command : TagCommand) → Decidable (command.Keeps tags)
  | .setTag name value => inferInstanceAs (Decidable (⟨name, value⟩ ∈ tags.rows))
  | .createTag _ _ => .isFalse id
  | .deleteTags from_ to_ =>
    inferInstanceAs (Decidable (∀ row ∈ tags.rows, inRange from_ to_ row.tag = false))
  | .renameTag from_ to_ => inferInstanceAs (Decidable (from_ = to_))

def Clears (tags : Table TagRow.tag) : TagCommand → Prop
  | .deleteTags from_ to_ => ∀ row ∈ tags.rows, inRange from_ to_ row.tag = true
  | .setTag _ _ | .createTag _ _ | .renameTag _ _ => False

instance (tags : Table TagRow.tag) : (command : TagCommand) → Decidable (command.Clears tags)
  | .deleteTags from_ to_ =>
    inferInstanceAs (Decidable (∀ row ∈ tags.rows, inRange from_ to_ row.tag = true))
  | .setTag _ _ | .createTag _ _ | .renameTag _ _ => .isFalse id

/-- The command names its new tag, where it has one, by a text. -/
def Named : TagCommand → Prop
  | .setTag name _ | .renameTag _ name => Utf8.isUtf8 name = true
  | .createTag _ _ | .deleteTags _ _ => True

instance : (command : TagCommand) → Decidable command.Named
  | .setTag name _ | .renameTag _ name => inferInstanceAs (Decidable (Utf8.isUtf8 name = true))
  | .createTag _ _ | .deleteTags _ _ => .isTrue trivial

def Refused (tags : Table TagRow.tag) : TagCommand → Prop
  | .renameTag from_ _ => from_ ∉ tags.rows.map TagRow.tag
  | .setTag _ _ | .createTag _ _ | .deleteTags _ _ => False

instance (tags : Table TagRow.tag) : (command : TagCommand) → Decidable (command.Refused tags)
  | .renameTag from_ _ => inferInstanceAs (Decidable (from_ ∉ tags.rows.map TagRow.tag))
  | .setTag _ _ | .createTag _ _ | .deleteTags _ _ => .isFalse id

end TagCommand

/-- A new name is a text, unless the process ends before the manifest is written; the process does
not end between truncation and write, unless there was no tag or will be none; and no operation
fails, unless the command asks for what is so already, and not the write of a manifest with tags. -/
def TagOp.Timely : TagOp → TagStore → Prop
  | .restart, _ => True
  | .command asked fate, s => asked.Refused s.tags ∨
    match fate with
    | .completes => asked.Named
    | .crashes done => done ≤ 1 ∨ done = 2 ∧ (s.tags.rows = [] ∨ asked.Clears s.tags) ∨
        3 ≤ done ∧ asked.Named
    | .fails op _ => asked.Keeps s.tags ∧ (op = .writeAt → s.tags.rows = [])

instance : (op : TagOp) → (s : TagStore) → Decidable (op.Timely s)
  | .restart, _ => .isTrue trivial
  | .command asked .completes, s => inferInstanceAs (Decidable (asked.Refused s.tags ∨ asked.Named))
  | .command asked (.crashes done), s => inferInstanceAs (Decidable (asked.Refused s.tags ∨
      (done ≤ 1 ∨ done = 2 ∧ (s.tags.rows = [] ∨ asked.Clears s.tags) ∨ 3 ≤ done ∧ asked.Named)))
  | .command asked (.fails op _), s => inferInstanceAs (Decidable (asked.Refused s.tags ∨
      asked.Keeps s.tags ∧ (op = .writeAt → s.tags.rows = [])))

namespace ManifestText

variable (text : ManifestText)

theorem inMemory_eq_none (tags : Table TagRow.tag) (command : TagCommand) :
    text.inMemory tags command = none ↔ command.Refused tags := by
  cases command with
  | setTag name value => exact ⟨fun done => (nomatch done), False.elim⟩
  | createTag now value => exact ⟨fun done => (nomatch done), False.elim⟩
  | deleteTags from_ to_ => exact ⟨fun done => (nomatch done), False.elim⟩
  | renameTag from_ to_ =>
    rw [inMemory, Option.map_eq_none_iff, Table.get_eq_none, TagCommand.Refused, List.mem_map]
    exact ⟨fun absent ⟨row, known, same⟩ => absent row known same,
      fun absent row known same => absent ⟨row, known, same⟩⟩

variable {tags : Table TagRow.tag} {command : TagCommand} {answer : TagAnswer}

theorem same_of_keeps {after : Table TagRow.tag}
    (does : text.inMemory tags command = some (after, answer)) (keeps : command.Keeps tags) :
    after.Same tags := by
  cases command with
  | setTag name value =>
    cases does
    intro row
    rw [Table.mem_upsert]
    constructor
    · rintro (rfl | ⟨known, -⟩)
      · exact keeps
      · exact known
    · intro known
      by_cases same : row.tag = name
      · exact .inl (tags.eq_of_key_eq known keeps same)
      · exact .inr ⟨known, same⟩
  | createTag now value => exact keeps.elim
  | deleteTags from_ to_ =>
    cases does
    intro row
    rw [Table.mem_deleteWhere]
    exact ⟨And.left, fun known => ⟨known, keeps row known⟩⟩
  | renameTag from_ to_ =>
    cases keeps
    obtain ⟨old, found, done⟩ := Option.map_eq_some_iff.mp does
    cases done
    obtain ⟨known, rfl⟩ := (Table.get_eq_some _ _ _).mp found
    intro row
    rw [Table.mem_upsert, Table.mem_deleteWhere, decide_eq_false_iff_not]
    constructor
    · rintro (rfl | ⟨⟨member, -⟩, -⟩)
      · exact known
      · exact member
    · intro member
      by_cases same : row.tag = old.tag
      · exact .inl (tags.eq_of_key_eq member known same)
      · exact .inr ⟨⟨member, same⟩, same⟩

theorem empty_of_clears {after : Table TagRow.tag}
    (does : text.inMemory tags command = some (after, answer)) (clears : command.Clears tags) :
    after.rows = [] := by
  cases command with
  | deleteTags from_ to_ =>
    cases does
    refine List.filter_eq_nil_iff.mpr fun row known => ?_
    have taken : inRange from_ to_ row.tag = true := clears row known
    simp only [taken, Bool.not_true, Bool.false_eq_true, not_false_eq_true]
  | setTag name value => exact clears.elim
  | createTag now value => exact clears.elim
  | renameTag from_ to_ => exact clears.elim

theorem named_upsert (named : Named tags) {row : TagRow}
    (valid : Utf8.isUtf8 row.tag = true) : Named (tags.upsert row) := by
  intro other member
  rcases (Table.mem_upsert _ _ _).mp member with rfl | ⟨known, -⟩
  · exact valid
  · exact named other known

theorem named_deleteWhere (named : Named tags) (p : TagRow → Bool) : Named (tags.deleteWhere p) :=
  fun row member => named row ((Table.mem_deleteWhere _ _ _).mp member).1

theorem named_inMemory {after : Table TagRow.tag}
    (does : text.inMemory tags command = some (after, answer)) (named : Named tags)
    (texts : command.Named) : Named after := by
  cases command with
  | setTag name value =>
    cases does
    exact named_upsert named texts
  | createTag now value =>
    cases does
    exact named_upsert named (text.newTag tags now).property
  | deleteTags from_ to_ =>
    cases does
    exact named_deleteWhere named _
  | renameTag from_ to_ =>
    obtain ⟨old, -, done⟩ := Option.map_eq_some_iff.mp does
    cases done
    exact named_upsert (named_deleteWhere named _) texts

theorem answer_inMemory {after : Table TagRow.tag}
    (does : text.inMemory tags command = some (after, answer)) : answer.isError = false := by
  cases command with
  | setTag name value => cases does; rfl
  | createTag now value => cases does; rfl
  | deleteTags from_ to_ => cases does; rfl
  | renameTag from_ to_ =>
    obtain ⟨old, -, done⟩ := Option.map_eq_some_iff.mp does
    cases done
    rfl

def after (tags : Table TagRow.tag) (command : TagCommand) : Table TagRow.tag :=
  (text.inMemory tags command).elim tags Prod.fst

/-- A command that was cut off leaves the tags from before it or from after it; one that answers an
error leaves the tags. -/
@[grind =] def Accounts (before after left : Table TagRow.tag) : Option TagAnswer → Prop
  | none => left.Same before ∨ left.Same after
  | some answer => answer.isError = true → left.Same before

instance (before after left : Table TagRow.tag) :
    (answer : Option TagAnswer) → Decidable (Accounts before after left answer)
  | none => inferInstanceAs (Decidable (left.Same before ∨ left.Same after))
  | some answer => inferInstanceAs (Decidable (answer.isError = true → left.Same before))

/-- The next spawn loads the tags in memory, those from before a command that it cut off, or those
after it; a command that answers an error has changed no tag. -/
@[grind =] def Durable : TagOp → TagStore → Prop
  | .restart, s => (text.spawnStore s.file).tags.Same s.tags
  | .command command fate, s =>
    let next := text.step (.command command fate) s
    (text.loadTags next.file).Same next.tags ∧
      Accounts s.tags (text.after s.tags command) next.tags (text.handle command fate s).2

instance : (op : TagOp) → (s : TagStore) → Decidable (text.Durable op s)
  | .restart, s => inferInstanceAs (Decidable ((text.spawnStore s.file).tags.Same s.tags))
  | .command asked fate, s => inferInstanceAs (Decidable (
      (text.loadTags (text.step (.command asked fate) s).file).Same
        (text.step (.command asked fate) s).tags ∧
      Accounts s.tags (text.after s.tags asked) (text.step (.command asked fate) s).tags
        (text.handle asked fate s).2))

theorem after_of_some {after : Table TagRow.tag}
    (does : text.inMemory tags command = some (after, answer)) : text.after tags command = after := by
  rw [ManifestText.after, does]
  rfl

theorem durable_of_refused {s : TagStore} (fate : Fate)
    (kept : (text.loadTags s.file).Same s.tags) (refused : command.Refused s.tags) :
    text.Durable (.command command fate) s := by
  have none_ := (text.inMemory_eq_none s.tags command).mpr refused
  cases fate with
  | completes =>
    simp only [Durable, Accounts, step, handle, none_]
    exact ⟨kept, fun _ => Table.Same.rfl⟩
  | fails op written =>
    simp only [Durable, Accounts, step, handle, none_]
    exact ⟨kept, fun _ => Table.Same.rfl⟩
  | crashes done =>
    simp only [Durable, Accounts, step, handle, none_]
    exact ⟨Table.Same.rfl, .inl kept⟩

theorem loadTags_failed {after : Table TagRow.tag} {file : Option (List UInt8)}
    (kept : (text.loadTags file).Same tags) (same : after.Same tags) (op : StorageOp) (written : Nat)
    (writes : op = .writeAt → tags.rows = []) :
    (text.loadTags (text.persistTags after (.fails op written) file).1).Same tags := by
  have named : Named after := fun row member =>
    text.named_loadTags file row ((kept row).mpr ((same row).mp member))
  cases op with
  | open_ => exact kept
  | truncate =>
    have opened : text.loadTags (some (file.getD [])) = text.loadTags file := text.loadTags_opened file
    exact fun row => (iff_of_eq (congrArg (row ∈ ·) opened)).trans (kept row)
  | flush =>
    have whole : (text.persistTags after (.fails .flush written) file).1 =
        some (text.toVec (text.manifest after)) := applyOps_all _ file
    rw [whole]
    exact (text.loadTags_toVec named).trans same
  | writeAt =>
    have none_ : tags.rows = [] := writes rfl
    have noRows : after.rows = [] := by
      refine List.eq_nil_iff_forall_not_mem.mpr fun row member => ?_
      have known : row ∈ tags := (same row).mp member
      rw [Table.mem_def, none_] at known
      exact List.not_mem_nil known
    have cut : (text.persistTags after (.fails .writeAt written) file).1 =
        some ((text.toVec (text.manifest after)).take written) := by
      change some (_ ++ List.drop _ []) = _
      rw [List.drop_nil, List.append_nil]
    have blank : (text.manifest after).rows = [] := by
      rw [manifest, noRows]
      rfl
    rw [cut]
    by_cases short : written < (text.toVec (text.manifest after)).length
    · rw [text.loadTags_eq_empty (text.fromSlice_take _ written blank short)]
      exact Table.same_empty none_
    · rw [List.take_of_length_le (Nat.le_of_not_lt short)]
      exact (text.loadTags_toVec named).trans same

theorem durable_of_timely {fate : Fate} {s : TagStore}
    (kept : (text.loadTags s.file).Same s.tags) (timely : (TagOp.command command fate).Timely s) :
    text.Durable (.command command fate) s := by
  rcases timely with refused | timely
  · exact text.durable_of_refused fate kept refused
  cases does : text.inMemory s.tags command with
  | none => exact text.durable_of_refused fate kept ((text.inMemory_eq_none _ _).mp does)
  | some result =>
    obtain ⟨after, answer⟩ := result
    have named : Named s.tags := fun row member =>
      text.named_loadTags s.file row ((kept row).mpr member)
    have written (texts : command.Named) :
        (text.loadTags (some (text.toVec (text.manifest after)))).Same after :=
      text.loadTags_toVec (text.named_inMemory does named texts)
    cases fate with
    | completes =>
      simp only [Durable, Accounts, step, handle, does, persistTags, Option.map_some, if_true]
      rw [applyOps_all]
      refine ⟨written timely, fun error => ?_⟩
      rw [text.answer_inMemory does] at error
      cases error
    | crashes done =>
      simp only [Durable, Accounts, step, handle, does, persistTags, Option.map_none]
      refine ⟨Table.Same.rfl, ?_⟩
      rw [text.after_of_some does]
      rcases timely with early | ⟨rfl, empty⟩ | ⟨late, texts⟩
      · refine .inl ?_
        rw [spawnStore, text.loadTags_crashed early]
        exact kept
      · have lost : text.spawnStore (applyOps (text.toVec (text.manifest after))
            (persistOps.take 2) s.file) = ⟨some [], ∅⟩ := by
          change text.spawnStore (some []) = _
          rw [spawnStore, text.loadTags_eq_empty text.fromSlice_nil]
        rw [lost]
        exact empty.imp Table.same_empty fun clears =>
          Table.same_empty (text.empty_of_clears does clears)
      · refine .inr ?_
        rw [applyOps_late late]
        exact written texts
    | fails op written_ =>
      obtain ⟨keeps, writes⟩ := timely
      have same := text.same_of_keeps does keeps
      simp only [Durable, Accounts, step, handle, does]
      have answered : (text.persistTags after (.fails op written_) s.file).2 = some false := rfl
      simp only [answered, Option.map_some, Bool.false_eq_true, if_false]
      exact ⟨(text.loadTags_failed kept same op written_ writes).trans same.symm, fun _ => same⟩

/-- What the spawn reads back is what is in memory, after every step. -/
theorem kept_step {op : TagOp} {s : TagStore} (durable : text.Durable op s) :
    (text.loadTags (text.step op s).file).Same (text.step op s).tags := by
  cases op with
  | restart => exact Table.Same.rfl
  | command asked fate => exact durable.1

/-- In every run whose steps are timely, every step is durable. -/
theorem tags_durable (file : Option (List UInt8)) (ops : List TagOp)
    (timely : Meets text.step TagOp.Timely ops (text.spawnStore file)) :
    Meets text.step text.Durable ops (text.spawnStore file) := by
  have spawned : (text.loadTags (text.spawnStore file).file).Same (text.spawnStore file).tags :=
    Table.Same.rfl
  have keeps : ∀ op s, op.Timely s → (text.loadTags s.file).Same s.tags →
      text.Durable op s ∧ (text.loadTags (text.step op s).file).Same (text.step op s).tags := by
    intro op s now kept
    have durable : text.Durable op s := by
      cases op with
      | restart => exact kept
      | command asked fate => exact text.durable_of_timely kept now
    exact ⟨durable, text.kept_step durable⟩
  exact timely.imp_keeping keeps spawned

end ManifestText

theorem length_raw (byte : UInt8) : (List.replicate 32 byte).length = 32 := List.length_replicate

def raw (byte : UInt8) : HashAndFormat := ⟨⟨List.replicate 32 byte, length_raw byte⟩, .raw⟩

/-- A run with a rename that is refused and one that is cut off before its write, and stops. -/
def timelyRun : List TagOp :=
  [.command (.setTag [0x61] (raw 1)) .completes, .command (.renameTag [0x62] [0x63]) .completes,
    .command (.renameTag [0x61] [0xFF]) (.crashes 1), .command (.setTag [0xC3, 0xA4] (raw 2)) .completes,
    .restart, .command (.deleteTags (some [0x62]) none) (.crashes 3), .restart]

theorem timelyRun_durable : Meets ManifestJson.text.step ManifestJson.text.Durable timelyRun
    (ManifestJson.text.spawnStore none) :=
  ManifestJson.text.tags_durable none timelyRun (by decide)

set_option maxRecDepth 4000 in
/-- A stop between truncation and write loses every tag; a tag whose name is no UTF-8 comes back
under another name; and a write that fails leaves a tag in memory that the answer denies. -/
theorem lost_tags :
    ¬ Meets ManifestJson.text.step ManifestJson.text.Durable
      [.command (.setTag [0x61] (raw 1)) .completes, .command (.setTag [0x62] (raw 2)) (.crashes 2)]
      (ManifestJson.text.spawnStore none) ∧
    ¬ Meets ManifestJson.text.step ManifestJson.text.Durable
      [.command (.setTag [0xFF] (raw 1)) .completes] (ManifestJson.text.spawnStore none) ∧
    ¬ Meets ManifestJson.text.step ManifestJson.text.Durable
      [.command (.setTag [0x61] (raw 1)) (.fails .writeAt 0)]
      (ManifestJson.text.spawnStore none) := by
  refine ⟨?_, ?_, ?_⟩
  · decide
  · decide
  · decide

end Tomb.Midden
