import Tomb.Lib.Drive
import Tomb.Lib.Prog
import Tomb.Lib.Table

/-! The blob store: rows in the table `blobz`, their files on a drive, and the operations of
`SqliteBlobStore`. Each query and each file operation is one command, so the operations can run
alone or interleave. Making directories, which never takes anything away, is left out. -/
namespace Tomb.Reliquary
open Tomb.Lib

abbrev Bytes := List UInt8

/-- A hash in hex. The store splits it after two characters, which a shorter text does not have. -/
structure Digest where
  text : List Char
  splits : 2 ≤ text.length
  deriving DecidableEq

inductive BlobType where
  | original
  | thumbnail
  | waveform
  | preview
  deriving DecidableEq

structure NewBlobMeta where
  filename : Option String := none
  mime : Option String := none
  blobType : BlobType := .original
  parentBlake3 : Option String := none
  width : Option Nat := none
  height : Option Nat := none
  metadata : Option String := none
  deriving DecidableEq

structure BlobRecord where
  blake3 : Digest
  irohHash : Option Digest
  size : Nat
  path : List Char
  external : Bool
  info : NewBlobMeta
  createdAt : Int
  softDeletedAt : Option Int
  softDeletedBy : Option String
  deriving DecidableEq

def BlobRecord.softDeleted (row : BlobRecord) : Bool := row.softDeletedAt.isSome

structure SoftDeleteOutcome where
  affected : Nat
  failed : List Digest

inductive BlobStoreError where
  | storage (message : String)
  | io (message : String)
  | hashMismatch (expected actual : String)
  | cancelled
  | notFound (message : String)

def relPath (blake3 : Digest) : List Char := blake3.text.take 2 ++ '/' :: blake3.text.drop 2

/-- What the store finds around it: how paths, of type `π`, lead to the entries of a drive, and the
hash function. Digests have entries of their own in the blob directory, and no two contents one
digest. -/
structure SqliteBlobStore (π ε : Type) where
  place : π → ε
  isAbsolute : π → Bool
  toStringLossy : π → List Char
  debug : π → String
  (ofText joinBlobDir : List Char → π)
  hash : Bytes → Digest
  apart : ∀ {a b : Digest}, place (joinBlobDir (relPath a)) = place (joinBlobDir (relPath b)) →
    a = b
  collisionFree : ∀ {a b : Bytes}, hash a = hash b → a = b

theorem relPath_injective {a b : Digest} (same : relPath a = relPath b) : a = b := by
  obtain ⟨text, splits⟩ := a
  obtain ⟨text', splits'⟩ := b
  simp only [relPath] at same
  have halves := List.append_inj same (by simp [splits, splits'])
  have rest : text.drop 2 = text'.drop 2 := (List.cons.inj halves.2).2
  have whole : text = text' := by
    rw [← List.take_append_drop 2 text, ← List.take_append_drop 2 text', halves.1, rest]
  subst whole
  rfl

theorem ofNat_byte_injective {a b : UInt8} (same : Char.ofNat a.toNat = Char.ofNat b.toNat) :
    a = b := by
  have code (byte : UInt8) : (Char.ofNat byte.toNat).toNat = byte.toNat := by
    have valid : byte.toNat.isValidChar := .inl (Nat.lt_trans byte.toNat_lt (by decide))
    unfold Char.ofNat
    rw [dif_pos valid]
    rfl
  have codes := congrArg Char.toNat same
  rw [code, code] at codes
  exact UInt8.toNat_inj.mp codes

/-- A store over a drive whose entries are the paths, with digests that spell the content. -/
def plainStore : SqliteBlobStore (List Char) (List Char) where
  place path := path
  isAbsolute path := path.head? = some '/'
  toStringLossy path := path
  debug path := String.ofList path
  ofText text := text
  joinBlobDir text := '/' :: text
  hash bytes := ⟨'0' :: '0' :: bytes.map fun byte => Char.ofNat byte.toNat, by simp⟩
  apart same := relPath_injective (List.cons.inj same).2
  collisionFree same := by
    have texts := congrArg Digest.text same
    simp only [List.cons.injEq, true_and] at texts
    exact List.map_injective_iff.mpr (fun _ _ => ofNat_byte_injective) texts

structure Blobz (ε : Type) where
  rows : Table BlobRecord.blake3
  drive : Drive ε Bytes

inductive BlobCmd (ε : Type) : Type → Type
  | getAny (blake3 : Digest) : BlobCmd ε (Option BlobRecord)
  | insertOrIgnore (row : BlobRecord) : BlobCmd ε Unit
  | updateSize (blake3 : Digest) (size : Nat) : BlobCmd ε Unit
  | updatePath (blake3 : Digest) (path : List Char) : BlobCmd ε Unit
  | softDelete (blake3 : Digest) (now : Int) (actor : String) : BlobCmd ε Nat
  | restore (blake3 : Digest) : BlobCmd ε Nat
  | selectSoftDeleted (blake3 : Digest) : BlobCmd ε (Option BlobRecord)
  | selectAllSoftDeleted : BlobCmd ε (List BlobRecord)
  | deleteRow (blake3 : Digest) : BlobCmd ε Unit
  | read (entry : ε) : BlobCmd ε (Option Bytes)
  | metadata (entry : ε) : BlobCmd ε (Option Nat)
  | write (entry : ε) (content : Bytes) : BlobCmd ε Unit
  | removeFile (entry : ε) : BlobCmd ε Bool
  | rename (entry target : ε) : BlobCmd ε Bool
  | copy (entry target : ε) : BlobCmd ε Bool

namespace Blobz

def empty {ε : Type} : Blobz ε := ⟨∅, Drive.empty []⟩

variable {ε : Type} [DecidableEq ε]

/-- The rows of a hash are rewritten if they satisfy the condition; the answer counts them. -/
def updateRow (s : Blobz ε) (blake3 : Digest) (p : BlobRecord → Bool)
    (f : BlobRecord → BlobRecord) (keeps : ∀ row, (f row).blake3 = row.blake3) :
    Nat × Blobz ε :=
  (((s.rows.get blake3).filter p).elim 0 fun _ => 1,
    { s with rows := s.rows.update (fun row => row.blake3 = blake3 && p row) f keeps })

def replaceDrive (s : Blobz ε) (drive : Option (Drive ε Bytes)) : Bool × Blobz ε :=
  match drive with
  | some drive => (true, { s with drive })
  | none => (false, s)

@[grind =] def exec {β : Type} : BlobCmd ε β → Blobz ε → β × Blobz ε
  | .getAny blake3, s => (s.rows.get blake3, s)
  | .insertOrIgnore row, s => ((), { s with rows := (s.rows.insert row).getD s.rows })
  | .updateSize blake3 size, s =>
    ((), (s.updateRow blake3 (fun _ => true) (fun row => { row with size }) fun _ => rfl).2)
  | .updatePath blake3 path, s =>
    ((), (s.updateRow blake3 (fun _ => true) (fun row => { row with path }) fun _ => rfl).2)
  | .softDelete blake3 now actor, s =>
    s.updateRow blake3 (fun row => !row.softDeleted)
      (fun row => { row with softDeletedAt := some now, softDeletedBy := some actor }) fun _ => rfl
  | .restore blake3, s =>
    s.updateRow blake3 BlobRecord.softDeleted
      (fun row => { row with softDeletedAt := none, softDeletedBy := none }) fun _ => rfl
  | .selectSoftDeleted blake3, s => ((s.rows.get blake3).filter BlobRecord.softDeleted, s)
  | .selectAllSoftDeleted, s => (s.rows.select BlobRecord.softDeleted, s)
  | .deleteRow blake3, s =>
    ((), { s with rows := s.rows.deleteWhere fun row => row.blake3 = blake3 })
  | .read entry, s => (s.drive.read entry, s)
  | .metadata entry, s => ((s.drive.read entry).map List.length, s)
  | .write entry content, s => ((), { s with drive := s.drive.write entry content })
  | .removeFile entry, s =>
    ((s.drive.read entry).isSome, { s with drive := s.drive.remove entry })
  | .rename entry target, s => s.replaceDrive (s.drive.rename entry target)
  | .copy entry target, s => s.replaceDrive (s.drive.copy entry target)

instance : Machine (BlobCmd ε) (Blobz ε) := ⟨exec⟩

@[simp] theorem machine_exec {β : Type} (command : BlobCmd ε β) (s : Blobz ε) :
    Machine.exec command s = exec command s := rfl

end Blobz

abbrev BlobProg (ε : Type) := Prog (BlobCmd ε) BlobStoreError

namespace SqliteBlobStore

variable {π ε : Type} (store : SqliteBlobStore π ε)

def canonical (blake3 : Digest) : ε := store.place (store.joinBlobDir (relPath blake3))

def pathFor (record : BlobRecord) : π :=
  if record.external then store.ofText record.path else store.joinBlobDir record.path

def fileOf (record : BlobRecord) : ε := store.place (store.pathFor record)

def noSuchFile : BlobStoreError := .io "No such file or directory (os error 2)"

def insertRow (blake3 irohHash : Digest) (path : List Char) (size : Nat) (external : Bool)
    (info : NewBlobMeta) (now : Int) : BlobProg ε BlobRecord := do
  .issue (.insertOrIgnore {
    blake3, irohHash := some irohHash, size, path, external, info
    createdAt := now, softDeletedAt := none, softDeletedBy := none })
  match ← Prog.issue (.getAny blake3) with
  | some record => .ret record
  | none => .fail (.storage "row must exist immediately after insert-or-ignore")

def insert (bytes : Bytes) (info : NewBlobMeta) (now : Int) : BlobProg ε BlobRecord := do
  let blake3 := store.hash bytes
  match ← Prog.issue (.getAny blake3) with
  | some existing => .ret existing
  | none =>
    .issue (.write (store.canonical blake3) bytes)
    insertRow blake3 blake3 (relPath blake3) bytes.length false info now

/-- The size of a managed row is repaired if it is not the size of the file at its place. -/
def repairSize (existing : BlobRecord) : BlobProg ε BlobRecord := do
  if existing.external then .ret existing
  else
    match ← Prog.issue (.metadata (store.canonical existing.blake3)) with
    | none => .ret existing
    | some actualSize =>
      if 0 < actualSize ∧ actualSize ≠ existing.size then
        .issue (.updateSize existing.blake3 actualSize)
        match ← Prog.issue (.getAny existing.blake3) with
        | some record => .ret record
        | none => .fail (.storage "row vanished immediately after repair update")
      else .ret existing

def registerIngested (blake3 : Digest) (info : NewBlobMeta) (now : Int) :
    BlobProg ε BlobRecord := do
  match ← Prog.issue (.getAny blake3) with
  | some existing => store.repairSize existing
  | none =>
    match ← Prog.issue (.metadata (store.canonical blake3)) with
    | none => .fail noSuchFile
    | some size => insertRow blake3 blake3 (relPath blake3) size false info now

def repairPath (existing : BlobRecord) (path : List Char) : BlobProg ε BlobRecord := do
  if existing.external then
    let recorded ← Prog.issue (.metadata (store.place (store.ofText existing.path)))
    if recorded.isNone ∧ existing.path ≠ path then
      .issue (.updatePath existing.blake3 path)
      match ← Prog.issue (.getAny existing.blake3) with
      | some record => .ret record
      | none => .fail (.storage "row vanished immediately after repair update")
    else .ret existing
  else .ret existing

def registerExternalPath (absPath : π) (info : NewBlobMeta) (cancelled : Bool) (now : Int) :
    BlobProg ε BlobRecord := do
  if store.isAbsolute absPath then
    match ← Prog.issue (.read (store.place absPath)) with
    | none => .fail noSuchFile
    | some bytes =>
      if cancelled then .fail .cancelled
      else
        let blake3 := store.hash bytes
        let path := store.toStringLossy absPath
        match ← Prog.issue (.getAny blake3) with
        | some existing => store.repairPath existing path
        | none => insertRow blake3 blake3 path bytes.length true info now
  else
    .fail (.io ("register_external_path requires an absolute path, got " ++ store.debug absPath))

/-- Move the file to its place: by a rename, or else by a copy whose source is removed. -/
def moveFile (path : π) (blake3 : Digest) : BlobProg ε Unit := do
  let renamed ← Prog.issue (.rename (store.place path) (store.canonical blake3))
  if renamed then .ret ()
  else
    let copied ← Prog.issue (.copy (store.place path) (store.canonical blake3))
    if copied then
      let _ ← Prog.issue (.removeFile (store.place path))
      .ret ()
    else .fail noSuchFile

def adoptLocalFile (path : π) (info : NewBlobMeta) (now : Int) : BlobProg ε BlobRecord := do
  match ← Prog.issue (.read (store.place path)) with
  | none => .fail noSuchFile
  | some bytes =>
    let blake3 := store.hash bytes
    match ← Prog.issue (.getAny blake3) with
    | some existing =>
      let _ ← Prog.issue (.removeFile (store.place path))
      .ret existing
    | none =>
      store.moveFile path blake3
      insertRow blake3 blake3 (relPath blake3) bytes.length false info now

def markEach (query : Digest → BlobCmd ε Nat) :
    List Digest → SoftDeleteOutcome → BlobProg ε SoftDeleteOutcome
  | [], outcome => .ret outcome
  | hash :: rest, outcome => do
    let affected ← Prog.issue (query hash)
    if affected = 0 then
      markEach query rest { outcome with failed := outcome.failed ++ [hash] }
    else markEach query rest { outcome with affected := outcome.affected + 1 }

def softDelete (blake3s : List Digest) (actor : String) (now : Int) :
    BlobProg ε SoftDeleteOutcome :=
  markEach (fun hash => .softDelete hash now actor) blake3s ⟨0, []⟩

def restore (blake3s : List Digest) : BlobProg ε SoftDeleteOutcome :=
  markEach .restore blake3s ⟨0, []⟩

/-- Remove the file of a selected row, unless it is external, and then the row of its hash. -/
def purgeRow (record : BlobRecord) : BlobProg ε Unit := do
  if !record.external then
    let _ ← Prog.issue (.removeFile (store.fileOf record))
  .issue (.deleteRow record.blake3)

def purgeEach : List Digest → SoftDeleteOutcome → BlobProg ε SoftDeleteOutcome
  | [], outcome => .ret outcome
  | hash :: rest, outcome => do
    match ← Prog.issue (.selectSoftDeleted hash) with
    | none => purgeEach rest { outcome with failed := outcome.failed ++ [hash] }
    | some record =>
      store.purgeRow record
      purgeEach rest { outcome with affected := outcome.affected + 1 }

def purgeRows : List BlobRecord → Nat → BlobProg ε SoftDeleteOutcome
  | [], deleted => .ret ⟨deleted, []⟩
  | record :: rest, deleted => do
    store.purgeRow record
    purgeRows rest (deleted + 1)

def hardDeleteSoftDeleted : Option (List Digest) → BlobProg ε SoftDeleteOutcome
  | some hashes => store.purgeEach hashes ⟨0, []⟩
  | none => do
    let rows ← Prog.issue .selectAllSoftDeleted
    store.purgeRows rows 0

end SqliteBlobStore

end Tomb.Reliquary
