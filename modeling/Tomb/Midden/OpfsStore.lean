import Mathlib.Data.Finset.Basic
import Tomb.Lib.Table

/-! Midden's opfs blob store: its entries and their files, its tags, and one gc cycle of the actor
that owns them. The hash maps of the source are tables here, in any order that they may be iterated
in. -/
namespace Tomb.Midden
open Tomb.Lib

abbrev Hash := { bytes : List UInt8 // bytes.length = 32 }

inductive BlobFormat where
  | raw
  | hashSeq
  deriving DecidableEq

structure HashAndFormat where
  hash : Hash
  format : BlobFormat
  deriving DecidableEq

/-! Temp tags, counted by batch scope; scope 0 is the untracked global one. -/

structure TempTagCount where
  content : HashAndFormat
  count : Nat

structure BatchScope where
  id : Nat
  counts : Table TempTagCount.content

structure TempTags where
  scopes : Table BatchScope.id
  nextScope : Nat

namespace TempTags

def new : TempTags := ⟨∅, 0⟩

def list (tags : TempTags) : List HashAndFormat :=
  tags.scopes.rows.flatMap fun batch => batch.counts.rows.map TempTagCount.content

end TempTags

/-- A storage file: its bytes, and the offsets at which the storage fails to read it. -/
structure BlobFile where
  bytes : List UInt8
  broken : List Nat

def BlobFile.readExactAt (file : BlobFile) (offset len : Nat) :
    Option { bytes : List UInt8 // bytes.length = len } :=
  if within : offset + len ≤ file.bytes.length ∧ offset ∉ file.broken then
    some ⟨(file.bytes.drop offset).take len, by
      rw [List.length_take, List.length_drop]
      omega⟩
  else none

structure CompleteState where
  size : Nat
  data : BlobFile

inductive EntryState where
  | partialBlob (size : Nat)
  | complete (state : CompleteState)

structure Entry where
  hash : Hash
  state : EntryState

inductive FileKind where
  | data
  | obao
  | meta_
  deriving DecidableEq

structure TagRow where
  tag : List UInt8
  value : HashAndFormat
  deriving DecidableEq

/-- The actor's state, with the directory's file names and the number of running tasks. -/
structure Ctx where
  dir : List (Hash × FileKind)
  entries : Table Entry.hash
  tags : Table TagRow.tag
  tempTags : TempTags
  activeTasks : Nat

inductive ProtectOutcome where
  | continue_
  | abort
  deriving DecidableEq

/-- What the protect callback, where there is one, answers, and the hashes that it adds. -/
structure GcOptions where
  addProtected : Option (ProtectOutcome × Finset Hash)

namespace Ctx

def isIdle (ctx : Ctx) : Bool := decide (ctx.activeTasks = 0)

def get (ctx : Ctx) (hash : Hash) : Option Entry := ctx.entries.get hash

/-- Delete a blob; `fails` tells which deletions the directory refuses. The entry goes first, and
the first refusal leaves the remaining files. -/
@[grind =] def deleteBlob (fails : Hash × FileKind → Bool) (ctx : Ctx) (hash : Hash) : Ctx :=
  let unlisted := { ctx with entries := ctx.entries.deleteWhere fun entry => decide (entry.hash = hash) }
  if fails (hash, .data) then unlisted
  else if fails (hash, .obao) then { unlisted with dir := ctx.dir.filter (· ≠ (hash, .data)) }
  else if fails (hash, .meta_) then { unlisted with
    dir := (ctx.dir.filter (· ≠ (hash, .data))).filter (· ≠ (hash, .obao)) }
  else { unlisted with
    dir := ((ctx.dir.filter (· ≠ (hash, .data))).filter (· ≠ (hash, .obao))).filter
      (· ≠ (hash, .meta_)) }

def roots (ctx : Ctx) : List HashAndFormat := ctx.tags.rows.map TagRow.value ++ ctx.tempTags.list

/-- The child hashes that the mark loop reads from an offset on, up to the first failing read; the
loop runs while 32 more bytes are below the size, which is `rounds` times. -/
def readHashes (data : BlobFile) : (rounds offset : Nat) → List Hash
  | 0, _ => []
  | rounds + 1, offset =>
    match data.readExactAt offset 32 with
    | some child => child :: readHashes data rounds (offset + 32)
    | none => []

def markRoot (ctx : Ctx) (live : Finset Hash) (root : HashAndFormat) : Finset Hash :=
  if root.hash ∈ live then live
  else
    let live := insert root.hash live
    if root.format = .raw then live
    else match ctx.get root.hash with
      | none => live
      | some ⟨_, .partialBlob _⟩ => live
      | some ⟨_, .complete state⟩ =>
        (readHashes state.data (state.size / 32) 0).foldl (fun live child => insert child live) live

def mark (ctx : Ctx) (live : Finset Hash) : Finset Hash := ctx.roots.foldl ctx.markRoot live

def sweep (fails : Hash × FileKind → Bool) (ctx : Ctx) (live : Finset Hash) : Ctx :=
  (ctx.entries.rows.map Entry.hash).foldl
    (fun ctx hash => if hash ∈ live then ctx else ctx.deleteBlob fails hash) ctx

def runGcCycle (fails : Hash × FileKind → Bool) (gc : GcOptions) (ctx : Ctx) : Ctx :=
  if !ctx.isIdle then ctx
  else match gc.addProtected with
    | none => ctx.sweep fails (ctx.mark ∅)
    | some (.continue_, live) => ctx.sweep fails (ctx.mark live)
    | some (.abort, _) => ctx

end Ctx

end Tomb.Midden
