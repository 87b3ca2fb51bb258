import Tomb.Lib.Table

/-! The blob store of the browser: records in one database, bytes in a chain of backends, and calls
that interleave wherever they wait. -/
namespace Tomb.Reliquary.Browser
open Tomb.Lib

abbrev Bytes := List UInt8

inductive BlobType where
  | original
  | thumbnail
  | waveform
  | preview

inductive BackendName where
  | opfs
  | cache
  deriving DecidableEq

structure NewBlobMeta where
  (filename mime : String)
  blobType : Option BlobType := none
  parentBlobId : Option String := none
  /-- The JSON of it. -/
  metadata : Option String := none

structure PartialMeta where
  filename : Option String := none
  mime : Option String := none
  blobType : Option BlobType := none
  parentBlobId : Option String := none
  metadata : Option String := none

structure BlobRecord where
  (blobId blake3 filename mime : String)
  size : Nat
  blobType : BlobType
  (parentBlobId metadata : Option String)
  createdAt : Int
  storageBackend : Option BackendName

structure File where
  (name type : String)
  content : Bytes

structure Storage where
  records : Table BlobRecord.blobId
  bytes : BackendName → String → Option Bytes

def Storage.put (storage : Storage) (backend : BackendName) (id : String) (content : Option Bytes) :
    Storage :=
  { storage with
    bytes := fun other name =>
      if other = backend ∧ name = id then content else storage.bytes other name }

/-- What the browser offers throughout. `hash` is the hasher of the bundled module; that the
directory of OPFS is there for reading does not follow from its API being there. -/
structure Platform where
  (opfsSupported opfsReadable cacheSupported : Bool)
  hash : Bytes → String

structure BlobStoreOptions where
  allowCacheFallback : Bool := false
  disableOpfs : Bool := false

def streamUploadThreshold : Nat := 8 * 1024 * 1024

def BlobStoreOptions.chain (options : BlobStoreOptions) : List BackendName :=
  if options.disableOpfs then [.cache]
  else if options.allowCacheFallback then [.opfs, .cache]
  else [.opfs]

namespace Platform

variable (platform : Platform)

def isAvailable : BackendName → Bool
  | .opfs => platform.opfsSupported
  | .cache => platform.cacheSupported

def reads : BackendName → Bool
  | .opfs => platform.opfsSupported && platform.opfsReadable
  | .cache => platform.cacheSupported

def read (storage : Storage) (backend : BackendName) (id : String) : Option Bytes :=
  if platform.reads backend then storage.bytes backend id else none

def readThroughChain (storage : Storage) (chain : List BackendName) (id : String)
    (knownBackend : Option BackendName) : Option Bytes :=
  ((knownBackend.filter (· ∈ chain)).bind (platform.read storage · id)).or
    (chain.findSome? (platform.read storage · id))

end Platform

def getRecordByBlake3 (storage : Storage) (blake3 : String) : Option BlobRecord :=
  if blake3 = "" then none
  else (storage.records.rows.filter (·.blake3 = blake3)).foldl (fun first record =>
    match first with
    | none => some record
    | some other => if record.blobId < other.blobId then some record else some other) none

def resolveBlob (storage : Storage) (blobId : String) (blake3 : Option String) :
    Option BlobRecord :=
  if blobId = "" then none
  else (storage.records.get blobId).or
    ((getRecordByBlake3 storage blobId).or (blake3.bind (getRecordByBlake3 storage)))

def getBlobData (platform : Platform) (options : BlobStoreOptions) (storage : Storage)
    (blobId : String) (blake3 : Option String) : Option Bytes :=
  (resolveBlob storage blobId blake3).bind fun record =>
    platform.readThroughChain storage options.chain record.blobId record.storageBackend

/-! A call between two of its waits. -/

inductive Stage where
  | hashing (data : Bytes) (info : NewBlobMeta)
  | lookup (blobId : String) (data : Bytes) (info : NewBlobMeta)
  | writing (rest : List BackendName) (blobId : String) (data : Bytes) (info : NewBlobMeta)
  | putting (record : BlobRecord) (data : Bytes)
  /-- The session of the worker: nothing of it is shared until it finishes. -/
  | streaming (file : File) (info : PartialMeta)
  /-- The temporary file is complete, its hash known. -/
  | finishing (file : File) (info : PartialMeta) (temporary : Bytes) (blake3 : String)
  | moving (file : File) (info : PartialMeta) (temporary : Bytes) (blake3 : String)
  | streamLookup (file : File) (info : PartialMeta) (blake3 : String)
  | streamPutting (file : File) (info : PartialMeta) (record : BlobRecord)
  | reading (file : File) (info : PartialMeta)
  | deleteLookup (blobId : String)
  | removing (blobId : String) (pending : List BackendName)
  | deletingRecord (blobId : String)
  | resolved (record : BlobRecord)
  | deleted
  | failed

/-- What the browser does while a call waits. A write that goes wrong may leave the file as it was
or with other contents, and whether the caller sees an error is another question. -/
structure Outcome where
  rejects : Bool := false
  aborted : Bool := false
  hasher : Bool := true
  fault : Option (Option Bytes) := none
  /-- The backend that answers the removal next. -/
  backend : BackendName := .opfs
  now : Int := 0

def newRecord (blobId : String) (size : Nat) (info : NewBlobMeta) (backend : BackendName)
    (now : Int) : BlobRecord where
  blobId := blobId
  blake3 := blobId
  filename := info.filename
  mime := info.mime
  size := size
  blobType := info.blobType.getD .original
  parentBlobId := info.parentBlobId
  metadata := info.metadata
  createdAt := now
  storageBackend := some backend

def PartialMeta.complete (info : PartialMeta) (file : File) : NewBlobMeta where
  filename := info.filename.getD file.name
  mime := info.mime.getD file.type
  blobType := info.blobType
  parentBlobId := info.parentBlobId
  metadata := info.metadata

def Storage.write (storage : Storage) (backend : BackendName) (id : String) (content : Bytes) :
    Option (Option Bytes) → Storage
  | none => storage.put backend id (some content)
  | some none => storage
  | some (some other) => storage.put backend id (some other)

inductive Call where
  | storeBlob (data : Bytes) (info : NewBlobMeta)
  | storeBlobFromFile (file : File) (info : PartialMeta)
  | deleteBlob (blobId : String)

def Call.begin : Call → Stage
  | .storeBlob data info => .hashing data info
  | .storeBlobFromFile file info =>
    if file.content.length ≥ streamUploadThreshold then .streaming file info else .reading file info
  | .deleteBlob blobId => .deleteLookup blobId

section Steps

variable (platform : Platform) (options : BlobStoreOptions)

/-- One backend of the chain is asked to take the bytes; the next one follows if it does not. -/
def write (outcome : Outcome) (backend : BackendName) (rest : List BackendName) (blobId : String)
    (data : Bytes) (info : NewBlobMeta) (storage : Storage) : Stage × Storage :=
  if platform.isAvailable backend then
    let storage := match backend with
      | .opfs => storage.write .opfs blobId data outcome.fault
      | .cache => if outcome.rejects then storage else storage.put .cache blobId (some data)
    if outcome.rejects then (.writing rest blobId data info, storage)
    else (.putting (newRecord blobId data.length info backend outcome.now) data, storage)
  else (.writing rest blobId data info, storage)

def advance (outcome : Outcome) (storage : Storage) : Stage → Option (Stage × Storage)
  | .hashing data info =>
    if outcome.rejects then some (.failed, storage)
    -- Without a hasher the hash is the empty text.
    else some (.lookup (if outcome.hasher then platform.hash data else "") data info, storage)
  | .lookup blobId data info =>
    if outcome.rejects then some (.failed, storage)
    else match storage.records.get blobId with
      | some existing => some (.resolved existing, storage)
      | none => some (.writing options.chain blobId data info, storage)
  | .writing [] _ _ _ => some (.failed, storage)
  | .writing (backend :: rest) blobId data info =>
    some (write platform outcome backend rest blobId data info storage)
  | .putting record _ =>
    if outcome.rejects then some (.failed, storage)
    else some (.resolved record, { storage with records := storage.records.upsert record })
  | .streaming file info =>
    if outcome.aborted then some (.failed, storage)
    else if outcome.rejects || !outcome.hasher then some (.reading file info, storage)
    else
      let temporary := (outcome.fault.getD (some file.content)).getD []
      some (.finishing file info temporary (platform.hash file.content), storage)
  | .finishing file info temporary blake3 =>
    if outcome.rejects then some (.reading file info, storage)
    else if (storage.bytes .opfs blake3).isSome then some (.streamLookup file info blake3, storage)
    else some (.moving file info temporary blake3, storage)
  | .moving file info temporary blake3 =>
    let storage := storage.write .opfs blake3 temporary outcome.fault
    if outcome.rejects then some (.reading file info, storage)
    else some (.streamLookup file info blake3, storage)
  | .streamLookup file info blake3 =>
    if outcome.rejects then some (.reading file info, storage)
    else match storage.records.get blake3 with
      | some existing => some (.resolved existing, storage)
      | none => some (.streamPutting file info
          (newRecord blake3 file.content.length (info.complete file) .opfs outcome.now), storage)
  | .streamPutting file info record =>
    if outcome.rejects then some (.reading file info, storage)
    else some (.resolved record, { storage with records := storage.records.upsert record })
  | .reading file info =>
    if outcome.aborted || outcome.rejects then some (.failed, storage)
    else some (.hashing file.content (info.complete file), storage)
  | .deleteLookup blobId =>
    if outcome.rejects then some (.failed, storage)
    else match storage.records.get blobId with
      | some _ => some (.removing blobId options.chain, storage)
      | none => some (.deletingRecord blobId, storage)
  | .removing blobId [] => some (.deletingRecord blobId, storage)
  | .removing blobId pending =>
    -- The removals run at once, so they end in any order; one that fails is ignored.
    if outcome.backend ∈ pending then
      some (.removing blobId (pending.erase outcome.backend),
        if outcome.rejects then storage else storage.put outcome.backend blobId none)
    else some (.removing blobId pending, storage)
  | .deletingRecord blobId =>
    if outcome.rejects then some (.failed, storage)
    else some (.deleted,
      { storage with records := storage.records.deleteWhere (·.blobId = blobId) })
  | .resolved _ | .deleted | .failed => none

/-- The calls so far, with what they were given, and what the store owes: the contents of every
store call that has resolved, as long as no later deletion names the record. -/
structure World where
  storage : Storage
  calls : List (Call × Stage) := []
  resolved : List (String × Bytes) := []
  owed : List (String × Bytes) := []

def Call.content : Call → Option Bytes
  | .storeBlob data _ => some data
  | .storeBlobFromFile file _ => some file.content
  | .deleteBlob _ => none

def Call.deletes : Call → Option String
  | .storeBlob _ _ | .storeBlobFromFile _ _ => none
  | .deleteBlob blobId => some blobId

inductive Op where
  | start (call : Call)
  | advance (index : Nat) (outcome : Outcome)

def promise (call : Call) : Stage → List (String × Bytes)
  | .resolved record => call.content.toList.map (Prod.mk record.blobId)
  | _ => []

def step : Op → World → World
  | .start call, world => { world with
      calls := world.calls ++ [(call, call.begin)]
      owed := world.owed.filter fun debt => call.deletes ≠ some debt.1 }
  | .advance index outcome, world =>
    match world.calls[index]? with
    | none => world
    | some (call, stage) =>
      match advance platform options outcome world.storage stage with
      | none => world
      | some (stage, storage) => {
          storage := storage
          calls := world.calls.set index (call, stage)
          resolved := promise call stage ++ world.resolved
          owed := promise call stage ++ world.owed }

end Steps

end Tomb.Reliquary.Browser
