import Mathlib.Logic.Function.Basic
import Tomb.Midden.OpfsStore

/-! The entries of midden's opfs store, how imports fill them, and what the store exports of them. The
blobs' hashes stand for their bytes. What a bitfield knows beyond its two fields is the code of
iroh-blobs, which is left open. The outboards, the tags and the temp files of imports are left out. -/
namespace Tomb.Midden.Blobs

abbrev Bytes := List UInt8

def chunkSize : Nat := 1024

def chunks (size : Nat) : Nat := (size + 1023) / 1024

structure Bitfield where
  ranges : Nat → Bool
  size : Nat

namespace Bitfield

def empty : Bitfield := ⟨fun _ => false, 0⟩

end Bitfield

/-- What the store calls of the crate: `new` may mark what is behind the end, `update` combines two
bitfields, `isComplete` is the state after it. -/
structure Iroh where
  new : (Nat → Bool) → Nat → Bitfield
  complete : Nat → Bitfield
  update : Bitfield → Bitfield → Bitfield
  isComplete : Bitfield → Bool

/-- What the crate documents of them: a validated size opens the ranges behind its end, the empty
bitfield is the neutral element, the size of one of both wins, and a complete bitfield has all chunks
up to its size. -/
structure Iroh.Documented (iroh : Iroh) : Prop where
  size_new : ∀ ranges size, (iroh.new ranges size).size = size
  ranges_new : ∀ ranges size c, (iroh.new ranges size).ranges c = true →
    ranges c = true ∨ (size ≠ 0 ∧ chunks size ≤ c)
  size_complete : ∀ size, (iroh.complete size).size = size
  neutral : ∀ ranges size, iroh.update .empty (iroh.new ranges size) = iroh.new ranges size
  size_update : ∀ bitfield update, (iroh.update bitfield update).size = bitfield.size ∨
    (iroh.update bitfield update).size = update.size
  ranges_update : ∀ bitfield update c, (iroh.update bitfield update).ranges c = true →
    bitfield.ranges c = true ∨ update.ranges c = true ∨
      ((iroh.update bitfield update).size ≠ 0 ∧ chunks (iroh.update bitfield update).size ≤ c)
  ranges_isComplete : ∀ bitfield, iroh.isComplete bitfield = true →
    ∀ c < chunks bitfield.size, bitfield.ranges c = true

structure Leaf where
  offset : Nat
  data : Bytes
  deriving DecidableEq

structure PartialMeta where
  size : Nat
  ranges : Nat → Bool

def PartialMeta.fromBitfield (bitfield : Bitfield) : PartialMeta := ⟨bitfield.size, bitfield.ranges⟩

def PartialMeta.toBitfield (iroh : Iroh) (pm : PartialMeta) : Bitfield := iroh.new pm.ranges pm.size

/-- A blob's files: its data, and the sidecar of a partial one, which may be empty. -/
structure Files where
  data : Bytes
  meta_ : Option (Option PartialMeta)

inductive EntryState where
  | partialBlob (size : Nat) (bitfield : Bitfield)
  | complete (size : Nat)

namespace EntryState

def bitfield (iroh : Iroh) : EntryState → Bitfield
  | partialBlob _ bitfield => bitfield
  | complete size => iroh.complete size

def size : EntryState → Nat
  | partialBlob size _ => size
  | complete size => size

end EntryState

structure Entry where
  id : Nat
  state : EntryState

structure ImportTask (Hash : Type) where
  hash : Hash
  (entry size : Nat)

structure Ctx (Hash : Type) where
  files : Hash → Option Files
  entries : Hash → Option Entry
  imports : List (ImportTask Hash)
  nextId : Nat

def writeAt (data : Bytes) (offset : Nat) (buf : Bytes) : Bytes :=
  (data.take offset ++ List.replicate (offset - data.length) 0) ++ buf ++
    data.drop (offset + buf.length)

def chunkRange (leaf : Leaf) : Nat → Bool := fun c =>
  chunks leaf.offset ≤ c && c < chunks (leaf.offset + leaf.data.length)

/-- A leaf that its import has verified: whole chunks of the blob, up to its end. -/
structure VerifiedLeaf (content : Bytes) where
  (first last : Nat)
  inside : first = 0 ∨ 1024 * first < content.length

def VerifiedLeaf.leaf {content : Bytes} (verified : VerifiedLeaf content) : Leaf :=
  ⟨1024 * verified.first,
    (content.drop (1024 * verified.first)).take (1024 * (verified.last - verified.first))⟩

namespace Ctx

variable {Hash : Type} [DecidableEq Hash]

def empty : Ctx Hash := ⟨fun _ => none, fun _ => none, [], 0⟩

def resumed (iroh : Iroh) (meta_ : Option (Option PartialMeta)) : Nat × Bitfield :=
  match meta_ with
  | some (some pm) => (pm.size, pm.toBitfield iroh)
  | _ => (0, .empty)

/-- The entry of a hash; one that is not there is opened as a partial one, with its files. -/
def getOrCreateEntry (iroh : Iroh) (hash : Hash) (ctx : Ctx Hash) : Entry × Ctx Hash :=
  match ctx.entries hash with
  | some entry => (entry, ctx)
  | none =>
    let files : Files := match ctx.files hash with
      | some files => { files with meta_ := some (files.meta_.getD none) }
      | none => ⟨[], some none⟩
    let (size, bitfield) := resumed iroh files.meta_
    let entry : Entry := ⟨ctx.nextId, .partialBlob size bitfield⟩
    (entry, { ctx with
      files := Function.update ctx.files hash (some files)
      entries := Function.update ctx.entries hash (some entry)
      nextId := ctx.nextId + 1 })

def importFromFile (hash : Hash) (source : Bytes) (ctx : Ctx Hash) : Ctx Hash :=
  match ctx.entries hash with
  | some ⟨_, .complete _⟩ => ctx
  | some ⟨id, .partialBlob _ _⟩ =>
    { ctx with
      files := Function.update ctx.files hash (some ⟨source, none⟩)
      entries := Function.update ctx.entries hash (some ⟨id, .complete source.length⟩) }
  | none =>
    { ctx with
      files := Function.update ctx.files hash (some ⟨source, none⟩)
      entries := Function.update ctx.entries hash (some ⟨ctx.nextId, .complete source.length⟩)
      nextId := ctx.nextId + 1 }

def importBao (iroh : Iroh) (hash : Hash) (size : Nat) (ctx : Ctx Hash) : Ctx Hash :=
  let (entry, ctx) := ctx.getOrCreateEntry iroh hash
  let state := match entry.state with
    | .partialBlob _ bitfield => .partialBlob size bitfield
    | .complete known => .complete known
  { ctx with
    entries := Function.update ctx.entries hash (some { entry with state := state })
    imports := ⟨hash, entry.id, size⟩ :: ctx.imports }

/-- One leaf of an import: the data, the bitfield, the sidecar, and the end of it if that was all.
Nothing is written for an entry that was deleted. -/
def importLeaf (iroh : Iroh) (task : ImportTask Hash) (leaf : Leaf) (ctx : Ctx Hash) : Ctx Hash :=
  match ctx.entries task.hash, ctx.files task.hash with
  | some ⟨id, .partialBlob size bitfield⟩, some files =>
    if id = task.entry then
      let data := writeAt files.data leaf.offset leaf.data
      let bitfield := iroh.update bitfield (iroh.new (chunkRange leaf) task.size)
      if iroh.isComplete bitfield then
        { ctx with
          files := Function.update ctx.files task.hash (some ⟨data, none⟩)
          entries := Function.update ctx.entries task.hash (some ⟨id, .complete size⟩) }
      else
        { ctx with
          files := Function.update ctx.files task.hash
            (some ⟨data, some (some (.fromBitfield bitfield))⟩)
          entries := Function.update ctx.entries task.hash (some ⟨id, .partialBlob size bitfield⟩) }
    else ctx
  | _, _ => ctx

def deleteBlob (hash : Hash) (ctx : Ctx Hash) : Ctx Hash :=
  { ctx with
    files := Function.update ctx.files hash none
    entries := Function.update ctx.entries hash none }

/-- A shutdown and the start of the next store on the directory: a sidecar marks a partial blob. -/
def respawn (iroh : Iroh) (ctx : Ctx Hash) : Ctx Hash :=
  { ctx with
    entries := fun hash => (ctx.files hash).map fun files =>
      ⟨ctx.nextId, match files.meta_ with
        | some _ => .partialBlob (resumed iroh files.meta_).1 (resumed iroh files.meta_).2
        | none => .complete files.data.length⟩
    imports := []
    nextId := ctx.nextId + 1 }

end Ctx

inductive Command (Hash : Type) (blob : Hash → Bytes) where
  | importBytes (hash : Hash)
  | importBao (hash : Hash) (size : Nat)
  | leaf (task : ImportTask Hash) (verified : VerifiedLeaf (blob task.hash))
  | observe (hash : Hash)
  | deleteBlobs (hashes : List Hash)
  | respawn

def step {Hash : Type} [DecidableEq Hash] {blob : Hash → Bytes} (iroh : Iroh) :
    Command Hash blob → Ctx Hash → Ctx Hash
  | .importBytes hash, ctx => ctx.importFromFile hash (blob hash)
  | .importBao hash size, ctx => ctx.importBao iroh hash size
  | .leaf task verified, ctx =>
    if ctx.imports.any fun running => running.hash = task.hash && running.entry = task.entry &&
        running.size = task.size then
      ctx.importLeaf iroh task verified.leaf
    else ctx
  | .observe hash, ctx => (ctx.getOrCreateEntry iroh hash).2
  | .deleteBlobs hashes, ctx => hashes.foldl (fun ctx hash => ctx.deleteBlob hash) ctx
  | .respawn, ctx => ctx.respawn iroh

inductive ByteRange where
  | range (start stop : Nat) (nonempty : start < stop)
  | rangeFrom (start : Nat)

namespace ByteRange

def start : ByteRange → Nat
  | range start _ _ => start
  | rangeFrom start => start

@[grind =] def clip (size : Nat) : ByteRange → Nat × Nat
  | range start stop _ => (min size start, min size stop)
  | rangeFrom start => (min size start, size)

@[grind =] def of (content : Bytes) : ByteRange → Bytes
  | range start stop _ => (content.drop start).take (stop - start)
  | rangeFrom start => content.drop start

end ByteRange

inductive ExportError where
  | notFound
  | missingRange (start stop : Nat)
  | unreadable
  deriving DecidableEq

@[grind =]
def sendRange (file : BlobFile) (stop : Nat) : (fuel offset : Nat) → List Leaf × Option ExportError
  | 0, _ => ([], none)
  | fuel + 1, offset =>
    let next := min (offset + 1024) stop
    match file.readExactAt offset (next - offset) with
    | none => ([], some .unreadable)
    | some bytes =>
      if stop ≤ next then ([⟨offset, bytes⟩], none)
      else
        let (leaves, error) := sendRange file stop fuel next
        (⟨offset, bytes⟩ :: leaves, error)

def present (bitfield : Bitfield) (start stop : Nat) : Bool :=
  if start < stop then
    (List.range' (start / 1024) (chunks stop - start / 1024)).all bitfield.ranges
  else true

@[grind =] def sendRanges (bitfield : Bitfield) (file : BlobFile) :
    List ByteRange → List Leaf × Option ExportError
  | [] => ([], none)
  | range :: rest =>
    let (start, stop) := range.clip bitfield.size
    if !present bitfield start stop then ([], some (.missingRange start stop))
    else
      match sendRange file stop (stop - start + 1) start with
      | (leaves, some error) => (leaves, some error)
      | (leaves, none) =>
        let (more, error) := sendRanges bitfield file rest
        (leaves ++ more, error)

/-- What is sent of a blob's ranges; `broken` are the offsets at which the storage fails to read. -/
def exportRanges {Hash : Type} (iroh : Iroh) (ctx : Ctx Hash) (hash : Hash)
    (ranges : List ByteRange) (broken : List Nat) : List Leaf × Option ExportError :=
  match ctx.entries hash, ctx.files hash with
  | some entry, some files => sendRanges (entry.state.bitfield iroh) ⟨files.data, broken⟩ ranges
  | _, _ => ([], some .notFound)

end Tomb.Midden.Blobs
