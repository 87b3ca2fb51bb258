import Tomb.Lib.Text
import Tomb.Grimoire.MediaBlobz.Models

/-! The local paths of grimoire's media blobs, and their repair once the data directory has moved. -/
namespace Tomb.Grimoire.MediaBlobz
open Tomb.Lib

def Path.rebase (dir path : Path) (pos : Nat) : Path where
  chars := dir.chars ++ path.chars.drop pos
  noNul member := by
    rcases List.mem_append.mp member with member | member
    · exact dir.noNul member
    · exact path.noNul (List.mem_of_mem_drop member)

inductive FileEntry where
  | file (bytes : List UInt8)
  | directory
  deriving DecidableEq

abbrev FileSystem := Path → Option FileEntry

def marker : List Char := "/fetch/".toList

def candidateRepairedLocalPath (localPath correctDataDir : Path) : Option Path :=
  if correctDataDir.chars <+: localPath.chars then none
  else
    match Text.find marker localPath.chars with
    | none => none
    | some markerPos => some (correctDataDir.rebase localPath markerPos)

def sweeps (correctDataDir localPath : Path) : Prop :=
  0 < Sqlite.instr localPath.chars marker ∧
    Sqlite.substr localPath.chars 1 (Sqlite.length correctDataDir.chars) ≠ correctDataDir.chars

instance (correctDataDir localPath : Path) : Decidable (sweeps correctDataDir localPath) :=
  inferInstanceAs (Decidable (_ ∧ _))

def swept (correctDataDir localPath : Path) : Path where
  chars := correctDataDir.chars ++
    Sqlite.substrFrom localPath.chars (Sqlite.instr localPath.chars marker)
  noNul member := by
    rcases List.mem_append.mp member with member | member
    · exact correctDataDir.noNul member
    · rw [Sqlite.substrFrom, Sqlite.upToNul_eq localPath.noNul] at member
      exact localPath.noNul (List.mem_of_mem_drop member)

def sweepRow (correctDataDir : Path) (row : MediaBlob) : MediaBlob :=
  match row.localPath with
  | none => row
  | some path =>
    if sweeps correctDataDir path then
      { row with localPath := some (swept correctDataDir path) }
    else row

theorem sweepRow_id (correctDataDir : Path) (row : MediaBlob) :
    (sweepRow correctDataDir row).id = row.id := by
  unfold sweepRow
  split
  · rfl
  · split <;> rfl

theorem sweepRow_blake3 (correctDataDir : Path) (row : MediaBlob) :
    (sweepRow correctDataDir row).blake3 = row.blake3 := by
  unfold sweepRow
  split
  · rfl
  · split <;> rfl

@[grind =] def repairStaleLocalPaths (table : Table) (correctDataDir : Path) : Table × Nat :=
  (table.update (sweepRow correctDataDir) (sweepRow_id correctDataDir)
      (sweepRow_blake3 correctDataDir),
    table.rows.countP fun row => row.localPath.any (sweeps correctDataDir ·))

/-- Whether the blob store's reference to the content can be moved to the path is for `referenced` to
say; the row of a blob without a hash moves without one. -/
def updateBlobLocalPath (table : Table) (id : String) (localPath : Path) (referenced : Bool) :
    Option (Table × MediaBlob) :=
  match table.getMediaBlob id with
  | none => none
  | some current =>
    if current.blake3.isSome && !referenced then none
    else some (table.updateWhereId id (fun row => { row with localPath := some localPath })
        (fun _ => rfl) (fun _ => rfl),
      { current with localPath := some localPath })

def trySelfHealMissingLocalPath (fs : FileSystem) (correctDataDir : Path) (table : Table)
    (blobId : String) (stalePath : Path) (referenced : Bool) : Table × Option Path :=
  match candidateRepairedLocalPath stalePath correctDataDir with
  | none => (table, none)
  | some candidate =>
    if (fs candidate).isNone then (table, none)
    else
      match updateBlobLocalPath table blobId candidate referenced with
      | none => (table, none)
      | some (table, _) => ((repairStaleLocalPaths table correctDataDir).1, some candidate)

inductive BlobPathResponse where
  | blobPath (id : String) (path : Path)
  | localFileMissing (id : String) (path : Path)
  | noLocalPath (id : String)
  | notFound

def resolveBlobPathResponse (fs : FileSystem) (correctDataDir : Path) (table : Table)
    (blobId : String) (path : Path) (referenced : Bool) : Table × BlobPathResponse :=
  if (fs path).isSome then (table, .blobPath blobId path)
  else
    match trySelfHealMissingLocalPath fs correctDataDir table blobId path referenced with
    | (table, some repaired) => (table, .blobPath blobId repaired)
    | (table, none) => (table, .localFileMissing blobId path)

def buildBlobPathResponse (fs : FileSystem) (correctDataDir : Path) (table : Table)
    (found : Option MediaBlob) (referenced : Bool) : Table × BlobPathResponse :=
  match found with
  | none => (table, .notFound)
  | some blob =>
    match blob.localPath with
    | none => (table, .noLocalPath blob.id)
    | some path => resolveBlobPathResponse fs correctDataDir table blob.id path referenced

end Tomb.Grimoire.MediaBlobz
