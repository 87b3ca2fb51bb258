import Mathlib.Data.Finset.Lattice.Lemmas
import Mathlib.Data.Finset.Erase
import Tomb.Lib.Pool
import Tomb.Reliquary.RowFiles

/-! The storage node: the transport's own store beside the blob store, what its garbage collection
must not sweep, and the snatches that fetch blobs from peers. The locks that keep snatches of one
hash, or from one peer, apart are left out, which only adds interleavings. -/
namespace Tomb.Reliquary
open Tomb.Lib

/-- The hashes of the transport: how a text is read as one, how one is spelled, and the content that
it stands for. -/
structure Hashes (H : Type) where
  parse : Digest → Except String H
  toHex : H → Digest
  content : H → Bytes

/-- The answer of a listing of the rows. `additions` tells how many rows had been added before; the
code hands it on and never looks at it. -/
structure Listing where
  hexHashes : List Digest
  additions : Nat

structure Snapshot (H : Type) where
  hashes : Finset H
  additions : Nat

structure StorageNode (ε H : Type) where
  blobz : Blobz ε
  protectedSet : Option (Snapshot H)
  (inFlight fsStore : Finset H)
  additions : Nat

inductive StorageCmd (ε H : Type) : Type → Type
  | listAllIrohHashes : StorageCmd ε H Listing
  | writeProtected (snapshot : Snapshot H) : StorageCmd ε H Unit
  | readProtected : StorageCmd ε H (Option (Snapshot H))
  | extendInFlight (live : Finset H) : StorageCmd ε H (Finset H)
  | insertInFlight (hash : H) : StorageCmd ε H Unit
  | removeInFlight (hash : H) : StorageCmd ε H Unit
  | download (hash : H) : StorageCmd ε H Unit
  | has (hash : H) : StorageCmd ε H Bool
  | tryExists (entry : ε) : StorageCmd ε H Bool
  | persistNoclobber (entry : ε) (content : Bytes) : StorageCmd ε H Bool

inductive NodeCmd (ε H β : Type) : Type where
  | blobz (command : BlobCmd ε β)
  | storage (command : StorageCmd ε H β)

namespace StorageNode

variable {ε H : Type} [DecidableEq ε] [DecidableEq H]

def execStorage {β : Type} : StorageCmd ε H β → StorageNode ε H → β × StorageNode ε H
  | .listAllIrohHashes, s => (⟨s.blobz.rows.rows.map (·.blake3), s.additions⟩, s)
  | .writeProtected snapshot, s => ((), { s with protectedSet := some snapshot })
  | .readProtected, s => (s.protectedSet, s)
  | .extendInFlight live, s => (live ∪ s.inFlight, s)
  | .insertInFlight hash, s => ((), { s with inFlight := insert hash s.inFlight })
  | .removeInFlight hash, s => ((), { s with inFlight := s.inFlight.erase hash })
  | .download hash, s => ((), { s with fsStore := insert hash s.fsStore })
  | .has hash, s => (decide (hash ∈ s.fsStore), s)
  | .tryExists entry, s => ((s.blobz.drive.read entry).isSome, s)
  | .persistNoclobber entry content, s =>
    match s.blobz.drive.read entry with
    | some _ => (false, s)
    | none => (true, { s with blobz := { s.blobz with drive := s.blobz.drive.write entry content } })

def added (before after : Blobz ε) : Nat :=
  (after.rows.rows.filter fun row => (before.rows.get row.blake3).isNone).length

def exec {β : Type} : NodeCmd ε H β → StorageNode ε H → β × StorageNode ε H
  | .blobz command, s =>
    ((Blobz.exec command s.blobz).1, { s with
      blobz := (Blobz.exec command s.blobz).2
      additions := s.additions + added s.blobz (Blobz.exec command s.blobz).2 })
  | .storage command, s => execStorage command s

end StorageNode

inductive SnatchError where
  | noBlake3
  | noPeers
  | noPeerHasBlob
  | probeTimeout
  | invalidHash (message : String)
  | invalidNodeId (message : String)
  | downloadFailed (message : String)
  | noDataTransferred (providersTried providersFailed : Nat)
  | downloadTimeout
  | sizeMismatch (expected actual : Nat)
  | ingest (error : BlobStoreError)
  | noDownloader

abbrev NodeProg (ε H : Type) := Prog (NodeCmd ε H) SnatchError

/-- What a snatch meets outside: the answers of the peers and of the transport. -/
structure Surroundings where
  probePeers : Except SnatchError String
  downloader : Bool
  endpointId : String → Except String Unit
  download : Except SnatchError Unit
  (exported ensure : Except String Unit)

structure BlobDescriptor where
  blake3 : Option Digest
  (filename mime : String)
  size : Nat

inductive LocalBlobPresence where
  | missing
  | active
  | softDeleted
  deriving DecidableEq

inductive ProtectOutcome (H : Type) where
  | abort
  | proceed (live : Finset H)

def looksComplete (existingSize expectedSize : Nat) : Bool :=
  0 < existingSize && (expectedSize = 0 || existingSize = expectedSize)

namespace StorageNode

variable {π ε H : Type} [DecidableEq ε] [DecidableEq H] (store : SqliteBlobStore π ε)
  (hashes : Hashes H)

def parsed (hexHashes : List Digest) : Finset H :=
  (hexHashes.filterMap fun hex => (hashes.parse hex).toOption).toFinset

def refresh : NodeProg ε H Unit := do
  let listing ← Prog.issue (.storage .listAllIrohHashes)
  .issue (.storage (.writeProtected ⟨parsed hashes listing.hexHashes, listing.additions⟩))

def protectCb (live : Finset H) : NodeProg ε H (ProtectOutcome H) := do
  match ← Prog.issue (.storage .readProtected) with
  | none => .ret .abort
  | some set =>
    let live ← Prog.issue (.storage (.extendInFlight (live ∪ set.hashes)))
    .ret (.proceed live)

def guarded {α : Type} (hash : H) (inner : NodeProg ε H α) : NodeProg ε H α := do
  .issue (.storage (.insertInFlight hash))
  let result ← inner.result
  .issue (.storage (.removeInFlight hash))
  .ofExcept result

def localBlobPresence (blake3 : Digest) : NodeProg ε H LocalBlobPresence := do
  match ← Prog.issue (.blobz (.getAny blake3)) with
  | none => .ret .missing
  | some record =>
    if record.softDeleted then .ret .softDeleted
    else
      let actualSize ← Prog.issue (.blobz (.metadata (store.fileOf record)))
      if actualSize ≠ some record.size ∨ record.size = 0 then .ret .missing else .ret .active

def targetLooksComplete (target : ε) (expectedSize : Nat) : NodeProg ε H Bool := do
  let size ← Prog.issue (.blobz (.metadata target))
  .ret (looksComplete (size.getD 0) expectedSize)

def failedBy {α : Type} (context : String) : Except String α → NodeProg ε H α
  | .ok value => .ret value
  | .error error => .fail (.downloadFailed (context ++ error))

def transfer (hash : H) (outside : Surroundings) : NodeProg ε H Unit :=
  match outside.download with
  | .ok _ => .issue (.storage (.download hash))
  | .error (.noDataTransferred tried failed) => do
    let alreadyComplete ← Prog.issue (.storage (.has hash))
    if alreadyComplete then .ret () else .fail (.noDataTransferred tried failed)
  | .error error => .fail error

def exportFailed {α : Type} (message : String) : NodeProg ε H α :=
  .fail (.downloadFailed ("export to blobz path: " ++ message))

def exportTryReference (hash : H) (outside : Surroundings) : NodeProg ε H Unit := do
  let path := store.joinBlobDir (relPath (hashes.toHex hash))
  let present ← Prog.issue (.storage (.tryExists (store.place path)))
  if present then
    match ← Prog.issue (.blobz (.read (store.place path))) with
    | none => exportFailed "fs store error: No such file or directory (os error 2)"
    | some bytes =>
      if store.hash bytes = hashes.toHex hash then
        failedBy "export to blobz path: fs store error: " outside.ensure
      else exportFailed ("fs store error: export target contains different bytes; " ++
        "refusing to overwrite " ++ String.ofList (store.toStringLossy path))
  else
    failedBy "export to blobz path: fs store error: " outside.exported
    let persisted ← Prog.issue
      (.storage (.persistNoclobber (store.place path) (hashes.content hash)))
    if persisted then failedBy "export to blobz path: fs store error: " outside.ensure
    else exportFailed "io error: File exists (os error 17)"

def verifyExportedSize (target : ε) (expectedSize : Nat) : NodeProg ε H Unit := do
  let size ← Prog.issue (.blobz (.metadata target))
  if looksComplete (size.getD 0) expectedSize then .ret ()
  else .fail (.sizeMismatch expectedSize (size.getD 0))

def downloadBlob (blake3 : Digest) (provider : String) (expectedSize : Nat)
    (outside : Surroundings) : NodeProg ε H Unit := do
  .require outside.downloader .noDownloader
  match hashes.parse blake3 with
  | .error error => .fail (.invalidHash error)
  | .ok hash =>
    let target := store.canonical blake3
    if ← targetLooksComplete target expectedSize then
      failedBy "verify existing export: " outside.ensure
    else
      match outside.endpointId provider with
      | .error error => .fail (.invalidNodeId error)
      | .ok _ => guarded hash do
        transfer hash outside
        exportTryReference store hashes hash outside
        verifyExportedSize target expectedSize

def ingestMeta (descriptor : BlobDescriptor) : NewBlobMeta where
  filename := if descriptor.filename = "" then none else some descriptor.filename
  mime := some (if descriptor.mime = "" then "application/octet-stream" else descriptor.mime)

def ingestBlob (blake3 : Digest) (descriptor : BlobDescriptor) (now : Int) :
    NodeProg ε H Unit := do
  let _ ← (((store.registerIngested blake3 (ingestMeta descriptor) now).mapError
    SnatchError.ingest).embed .blobz : NodeProg ε H BlobRecord)
  .ret ()

def snatchDescriptor (descriptor : BlobDescriptor) (outside : Surroundings) (now : Int) :
    NodeProg ε H Unit :=
  match descriptor.blake3 with
  | none => .fail .noBlake3
  | some blake3 => do
    match ← localBlobPresence store blake3 with
    | .active => .ret ()
    | .softDeleted => .ret ()
    | .missing =>
      let provider ← Prog.ofExcept outside.probePeers
      downloadBlob store hashes blake3 provider descriptor.size outside
      ingestBlob store blake3 descriptor now

end StorageNode

end Tomb.Reliquary
