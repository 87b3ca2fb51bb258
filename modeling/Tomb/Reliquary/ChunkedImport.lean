import Std.Data.String.ToNat
import Tomb.Lib.Pool
import Tomb.Reliquary.RowFiles

/-! Chunked uploads: bytes accumulate in a temp file under an upload id, and the finished file is
adopted into the blob store. Each access to the sessions and each file operation is one step. -/
namespace Tomb.Reliquary
open Tomb.Lib

def uploadId (pid seq : Nat) : List Char :=
  ['u', 'p', 'l', 'o', 'a', 'd', '-'] ++ Nat.toDigits 10 pid ++ '-' :: Nat.toDigits 10 seq

theorem uploadId_injective {pid a b : Nat} (same : uploadId pid a = uploadId pid b) : a = b := by
  have digits := (List.cons.inj (List.append_cancel_left same)).2
  exact Nat.repr_injective (congrArg String.ofList digits)

/-- Where uploads accumulate. Each id has a temp file of its own, apart from the blob directory's
places. -/
structure ChunkedImport {π ε : Type} (store : SqliteBlobStore π ε) where
  pid : Nat
  join : List Char → π
  apart : ∀ {a b : List Char}, store.place (join (a ++ ['.', 'p', 'a', 'r', 't'])) =
    store.place (join (b ++ ['.', 'p', 'a', 'r', 't'])) → a = b
  outside : ∀ id blake3, store.canonical blake3 ≠
    store.place (join (id ++ ['.', 'p', 'a', 'r', 't']))

structure Imports (π ε : Type) where
  blobz : Blobz ε
  counter : Nat
  uploads : List Char → Option π

inductive UploadCmd (π ε : Type) : Type → Type
  | fetchAdd : UploadCmd π ε Nat
  | create (entry : ε) : UploadCmd π ε Unit
  | insertUpload (id : List Char) (path : π) : UploadCmd π ε Unit
  | getUpload (id : List Char) : UploadCmd π ε (Option π)
  | removeUpload (id : List Char) : UploadCmd π ε (Option π)
  | openAppend (entry : ε) : UploadCmd π ε (Option Nat)
  | writeAll (file : Nat) (data : Bytes) : UploadCmd π ε Unit

inductive ImportCmd (π ε β : Type) : Type where
  | store (command : BlobCmd ε β)
  | upload (command : UploadCmd π ε β)

namespace Imports

variable {π ε : Type} [DecidableEq ε]

@[grind =] def withDrive (s : Imports π ε) (drive : Drive ε Bytes) : Imports π ε :=
  { s with blobz := { s.blobz with drive } }

def execUpload {β : Type} : UploadCmd π ε β → Imports π ε → β × Imports π ε
  | .fetchAdd, s => (s.counter, { s with counter := s.counter + 1 })
  | .create entry, s => ((), s.withDrive (s.blobz.drive.write entry []))
  | .insertUpload id path, s => ((), { s with uploads := Function.update s.uploads id (some path) })
  | .getUpload id, s => (s.uploads id, s)
  | .removeUpload id, s => (s.uploads id, { s with uploads := Function.update s.uploads id none })
  | .openAppend entry, s => (s.blobz.drive.handle entry, s)
  | .writeAll file data, s => ((), s.withDrive (s.blobz.drive.modify file (· ++ data)))

@[grind =] def exec {β : Type} : ImportCmd π ε β → Imports π ε → β × Imports π ε
  | .store command, s =>
    ((Blobz.exec command s.blobz).1, { s with blobz := (Blobz.exec command s.blobz).2 })
  | .upload command, s => execUpload command s

instance : Machine (ImportCmd π ε) (Imports π ε) := ⟨exec⟩

end Imports

abbrev ImportProg (π ε : Type) := Prog (ImportCmd π ε) BlobStoreError

namespace ChunkedImport

variable {π ε : Type} {store : SqliteBlobStore π ε} (imports : ChunkedImport store)

def partPath (id : List Char) : π := imports.join (id ++ ['.', 'p', 'a', 'r', 't'])

def unknownUpload (id : List Char) : BlobStoreError :=
  .notFound ("unknown chunked upload id: " ++ String.ofList id)

variable (store)

def append (id : List Char) (data : Bytes) : ImportProg π ε Nat := do
  match ← Prog.issue (.upload (.getUpload id)) with
  | none => .fail (unknownUpload id)
  | some path =>
    match ← Prog.issue (.upload (.openAppend (store.place path))) with
    | none => .fail SqliteBlobStore.noSuchFile
    | some file =>
      .issue (.upload (.writeAll file data))
      match ← Prog.issue (.store (.metadata (store.place path))) with
      | none => .fail SqliteBlobStore.noSuchFile
      | some len => .ret len

def take (id : List Char) : ImportProg π ε π := do
  match ← Prog.issue (.upload (.removeUpload id)) with
  | some path => .ret path
  | none => .fail (unknownUpload id)

def finish (id : List Char) (info : NewBlobMeta) (now : Int) : ImportProg π ε BlobRecord := do
  let path ← take id
  (store.adoptLocalFile path info now).embed .store

def finishToPath (id : List Char) : ImportProg π ε π := take id

def abort (id : List Char) : ImportProg π ε Unit := do
  match ← Prog.issue (.upload (.removeUpload id)) with
  | some path =>
    let _ ← Prog.issue (.store (.removeFile (store.place path)))
    .ret ()
  | none => .ret ()

end ChunkedImport

end Tomb.Reliquary
