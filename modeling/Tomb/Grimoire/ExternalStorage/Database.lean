import Tomb.Lib.Table
import Tomb.Grimoire.ExternalStorage.Paths

/-! The tables of the library sources, the view that matches media with them, and the triggers that
keep the matches in a table. -/
namespace Tomb.Grimoire.ExternalStorage
open Tomb.Lib

structure MediaBlob where
  id : String
  localPath : Option Path
  deriving DecidableEq

inductive SourceDomain where
  | both
  | music
  | video

structure LibrarySource where
  (id volumeKey : String)
  (volumeUuid partitionUuid label : Option String)
  (relativePath lastKnownPath : Path)
  domain : SourceDomain

structure SourcePath where
  sourceId : String
  path : Path
  deriving DecidableEq

inductive Status where
  | unknown
  | online
  | offline
  deriving DecidableEq

structure SourceState where
  sourceId : String
  status : Status
  missingSince : Option Int
  (checkedAt changedAt : Int)

structure SyncTarget where
  deviceId : String
  volumeUuid : Option String
  path : Path

def SyncTarget.accepted (target : SyncTarget) : Bool :=
  target.deviceId ≠ "" && target.path.isAbsolute && target.volumeUuid ≠ some ""

structure StorageSyncTarget where
  owner : String
  target : SyncTarget
  isAccepted : target.accepted = true

structure SourceMedia where
  (blobId sourceId : String)
  deriving DecidableEq

structure Database where
  mediaBlobz : Table MediaBlob.id
  librarySourcez : Table LibrarySource.id
  librarySourcePathz : Table fun row : SourcePath => row
  librarySourceStatez : Table SourceState.sourceId
  librarySourceMediaz : Table fun row : SourceMedia => row
  storageSyncTargetz : Table fun row : StorageSyncTarget => (row.owner, row.target.deviceId)

namespace Database

instance : EmptyCollection Database := ⟨⟨∅, ∅, ∅, ∅, ∅, ∅⟩⟩

variable (db : Database)

def hasBlob (id : String) : Bool := db.mediaBlobz.rows.any (·.id = id)

def hasSource (id : String) : Bool := db.librarySourcez.rows.any (·.id = id)

def joined (blob : MediaBlob) (root : SourcePath) : Option SourceMedia :=
  match blob.localPath with
  | some path =>
    if liesBelow root.path.chars path.chars && db.hasSource root.sourceId then
      some ⟨blob.id, root.sourceId⟩
    else none
  | none => none

def librarySourceBlobPathView : List SourceMedia :=
  (db.mediaBlobz.rows.flatMap fun blob =>
    db.librarySourcePathz.rows.filterMap (db.joined blob)).dedup

def insertSourceMedia (orIgnore : Bool) (row : SourceMedia) : Option Database :=
  if db.hasBlob row.blobId && db.hasSource row.sourceId then
    match db.librarySourceMediaz.insert row with
    | some medias => some { db with librarySourceMediaz := medias }
    | none => if orIgnore then some db else none
  else none

def insertFromView (orIgnore : Bool) (p : SourceMedia → Bool) : Option Database :=
  (db.librarySourceBlobPathView.filter p).foldlM (fun db row => db.insertSourceMedia orIgnore row) db

def deleteSourceMedia (p : SourceMedia → Bool) : Database :=
  { db with librarySourceMediaz := db.librarySourceMediaz.deleteWhere p }

def trgLibrarySourceMediaBlobInsert (new : MediaBlob) : Option Database :=
  db.insertFromView true (·.blobId = new.id)

def trgLibrarySourceMediaBlobPathUpdate (old new : MediaBlob) : Option Database :=
  if old.localPath ≠ new.localPath then
    (db.deleteSourceMedia (·.blobId = new.id)).insertFromView false (·.blobId = new.id)
  else some db

def trgLibrarySourceMediaPathInsert (new : SourcePath) : Option Database :=
  db.insertFromView true (·.sourceId = new.sourceId)

def trgLibrarySourceMediaPathDelete (old : SourcePath) : Option Database :=
  (db.deleteSourceMedia (·.sourceId = old.sourceId)).insertFromView false (·.sourceId = old.sourceId)

def trgLibrarySourceMediaPathUpdate (old new : SourcePath) : Option Database :=
  let touched (row : SourceMedia) : Bool :=
    row.sourceId = old.sourceId || row.sourceId = new.sourceId
  (db.deleteSourceMedia touched).insertFromView false touched

def insertBlob (blob : MediaBlob) : Option Database := do
  let blobs ← db.mediaBlobz.insert blob
  let db := { db with mediaBlobz := blobs }
  db.trgLibrarySourceMediaBlobInsert blob

def updateBlobPath (id : String) (localPath : Option Path) : Option Database :=
  match db.mediaBlobz.get id with
  | none => some db
  | some old =>
    let blobs :=
      db.mediaBlobz.update (·.id = id) (fun blob => { blob with localPath }) fun _ => rfl
    let db := { db with mediaBlobz := blobs }
    db.trgLibrarySourceMediaBlobPathUpdate old { old with localPath }

def deleteBlob (id : String) : Database :=
  { db with mediaBlobz := db.mediaBlobz.deleteWhere (·.id = id) }.deleteSourceMedia (·.blobId = id)

def insertSource (source : LibrarySource) : Option Database := do
  if db.librarySourcez.rows.any fun other =>
      other.volumeKey = source.volumeKey && other.relativePath = source.relativePath then
    none
  else
    let sources ← db.librarySourcez.insert source
    some { db with librarySourcez := sources }

def insertPath (row : SourcePath) : Option Database := do
  let paths ← db.librarySourcePathz.insert row
  let db := { db with librarySourcePathz := paths }
  if db.hasSource row.sourceId then db.trgLibrarySourceMediaPathInsert row else none

def deletePath (row : SourcePath) : Option Database :=
  if row ∈ db.librarySourcePathz.rows then
    let db := { db with librarySourcePathz := db.librarySourcePathz.deleteWhere (· = row) }
    db.trgLibrarySourceMediaPathDelete row
  else some db

def updatePath (old new : SourcePath) : Option Database := do
  if old ∈ db.librarySourcePathz.rows then
    let paths ← (db.librarySourcePathz.deleteWhere (· = old)).insert new
    let db := { db with librarySourcePathz := paths }
    if db.hasSource new.sourceId then db.trgLibrarySourceMediaPathUpdate old new else none
  else some db

def cascadePaths (id : String) : Option Database :=
  (db.librarySourcePathz.rows.filter (·.sourceId = id)).foldlM (fun db row => db.deletePath row) db

def deleteSource (id : String) (mediaFirst : Bool) : Option Database := do
  let db :=
    { db with
      librarySourcez := db.librarySourcez.deleteWhere (·.id = id)
      librarySourceStatez := db.librarySourceStatez.deleteWhere (·.sourceId = id) }
  if mediaFirst then
    (db.deleteSourceMedia (·.sourceId = id)).cascadePaths id
  else
    let db ← db.cascadePaths id
    some (db.deleteSourceMedia (·.sourceId = id))

end Database

end Tomb.Grimoire.ExternalStorage
