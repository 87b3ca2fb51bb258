import Tomb.Lib.Utf8
import Tomb.Midden.OpfsStore

/-! The persistent tags of the opfs store: the tag commands of the actor, the manifest file that
they rewrite in place, and its load at the next spawn. The storage may stop after any of its
operations, or refuse one. -/
namespace Tomb.Midden
open Tomb.Lib

structure ManifestRow where
  (name hashHex format : Utf8)

abbrev TagsManifest := Table ManifestRow.name

def formatToStr : BlobFormat → Utf8
  | .raw => ⟨[0x72, 0x61, 0x77], by decide⟩
  | .hashSeq => ⟨[0x68, 0x61, 0x73, 0x68, 0x73, 0x65, 0x71], by decide⟩

def formatFromStr (format : Utf8) : BlobFormat :=
  if format = formatToStr .hashSeq then .hashSeq else .raw

/-- What serde_json writes and reads, the texts of a hash, and the names that `Tag::auto` makes:
they avoid the tags that are there. -/
structure ManifestText where
  toVec : TagsManifest → List UInt8
  fromSlice : List UInt8 → Option TagsManifest
  toHex : Hash → Utf8
  parseHash : Utf8 → Option Hash
  autoTag : (now : Nat) → (exists_ : List UInt8 → Bool) → Utf8
  fromSlice_nil : fromSlice [] = none
  fromSlice_toVec : ∀ manifest, ∃ back, fromSlice (toVec manifest) = some back ∧
    back.Same manifest
  /-- No text breaks off within the manifest without tags. -/
  fromSlice_take : ∀ manifest len, manifest.rows = [] → len < (toVec manifest).length →
    fromSlice ((toVec manifest).take len) = none
  parseHash_toHex : ∀ hash, parseHash (toHex hash) = some hash

inductive StorageOp where
  | open_
  | truncate
  | writeAt
  | flush
  deriving DecidableEq

/-- What becomes of the storage operations of a command: all are done, the process ends after so
many of them, or one fails, a write after so many bytes. -/
inductive Fate where
  | completes
  | crashes (done : Nat)
  | fails (op : StorageOp) (written : Nat)

inductive TagCommand where
  | setTag (name : List UInt8) (value : HashAndFormat)
  | createTag (now : Nat) (value : HashAndFormat)
  | deleteTags (from_ to_ : Option (List UInt8))
  | renameTag (from_ to_ : List UInt8)

def inRange (from_ to_ : Option (List UInt8)) (tag : List UInt8) : Bool :=
  !(from_.elim false fun from_ => decide (tag < from_)) &&
    !(to_.elim false fun to_ => decide (to_ ≤ tag))

inductive TagAnswer where
  | done
  | created (tag : Utf8)
  | notFound
  | persistTags

def TagAnswer.isError : TagAnswer → Bool
  | .notFound | .persistTags => true
  | .done | .created _ => false

structure TagStore where
  file : Option (List UInt8)
  tags : Table TagRow.tag

def StorageOp.apply (bytes : List UInt8) (file : Option (List UInt8)) :
    StorageOp → Option (List UInt8)
  | .open_ => some (file.getD [])
  | .truncate => some []
  | .writeAt => some (bytes ++ (file.getD []).drop bytes.length)
  | .flush => file

def persistOps : List StorageOp := [.open_, .truncate, .writeAt, .flush]

def applyOps (bytes : List UInt8) (ops : List StorageOp) (file : Option (List UInt8)) :
    Option (List UInt8) :=
  ops.foldl (StorageOp.apply bytes) file

namespace ManifestText

variable (text : ManifestText)

def manifest (tags : Table TagRow.tag) : TagsManifest :=
  Table.collect (tags.rows.map fun row =>
    ⟨Utf8.fromUtf8Lossy row.tag, text.toHex row.value.hash, formatToStr row.value.format⟩)

/-- Persist the tags. Answers the file that is left, and if all went well; a process that has ended
answers nothing. -/
def persistTags (tags : Table TagRow.tag) (fate : Fate) (file : Option (List UInt8)) :
    Option (List UInt8) × Option Bool :=
  let bytes := text.toVec (text.manifest tags)
  match fate with
  | .completes => (applyOps bytes persistOps file, some true)
  | .crashes done => (applyOps bytes (persistOps.take done) file, none)
  | .fails op written =>
    let before := applyOps bytes (persistOps.takeWhile (· ≠ op)) file
    (if op = .writeAt then StorageOp.apply (bytes.take written) before .writeAt else before,
      some false)

@[grind =] def loadTags (file : Option (List UInt8)) : Table TagRow.tag :=
  match file with
  | none => ∅
  | some bytes =>
    if 0 < bytes.length then
      match text.fromSlice bytes with
      | some manifest => Table.collect (manifest.rows.filterMap fun row =>
          (text.parseHash row.hashHex).map fun hash =>
            ⟨row.name.val, hash, formatFromStr row.format⟩)
      | none => ∅
    else ∅

def spawnStore (file : Option (List UInt8)) : TagStore := ⟨file, text.loadTags file⟩

def newTag (tags : Table TagRow.tag) (now : Nat) : Utf8 :=
  text.autoTag now fun name => (tags.get name).isSome

/-- What a command does to the tags in memory, and answers once they are persisted; a rename of a
tag that is not there does nothing and persists nothing. -/
def inMemory (tags : Table TagRow.tag) : TagCommand → Option (Table TagRow.tag × TagAnswer)
  | .setTag name value => some (tags.upsert ⟨name, value⟩, .done)
  | .createTag now value =>
    some (tags.upsert ⟨(text.newTag tags now).val, value⟩, .created (text.newTag tags now))
  | .deleteTags from_ to_ =>
    some (tags.deleteWhere fun row => inRange from_ to_ row.tag, .done)
  | .renameTag from_ to_ => (tags.get from_).map fun row =>
      ((tags.deleteWhere fun row => decide (row.tag = from_)).upsert ⟨to_, row.value⟩, .done)

@[grind =]
def handle (command : TagCommand) (fate : Fate) (s : TagStore) : TagStore × Option TagAnswer :=
  match text.inMemory s.tags command with
  | none => (s, match fate with
    | .crashes _ => none
    | .completes | .fails _ _ => some .notFound)
  | some (tags, answer) =>
    let (file, ended) := text.persistTags tags fate s.file
    (⟨file, tags⟩, ended.map fun well => if well then answer else .persistTags)

end ManifestText

inductive TagOp where
  | command (command : TagCommand) (fate : Fate)
  | restart

/-- One step: a command, or a stop; whenever the process ends, the store is spawned again. -/
@[grind =] def ManifestText.step (text : ManifestText) : TagOp → TagStore → TagStore
  | .restart, s => text.spawnStore s.file
  | .command command fate, s =>
    match text.handle command fate s with
    | (next, none) => text.spawnStore next.file
    | (next, some _) => next

end Tomb.Midden
