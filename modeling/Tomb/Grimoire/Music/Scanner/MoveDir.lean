import Tomb.Lib.Runs
import Tomb.Lib.Table
import Tomb.Lib.Utf8

/-! A scanned directory that was moved on disk: the files of the new tree are matched with the blobs
of the old one. A path is the list of its names. The mirror of the table in the transport store is
left out, and what the blobs' metadata holds beside a file's size. -/
namespace Tomb.Grimoire.Music.Scanner
open Lib

abbrev Name := List UInt8

abbrev Path := List Name

structure MediaBlob where
  id : String
  localPath : Option Path
  size : Option Int
  /-- What the metadata of older rows has for the size. -/
  fileSize : Option Int
  filename : Option Name
  (blake3 sha256 : Option String)
  deleted : Bool

structure Song where
  mediaBlobId : String
  deleted : Bool

structure Library where
  blobs : Table MediaBlob.id
  songs : List Song
  scannedDirectories : List Path

structure File where
  rel : Path
  size : Int
  (blake3 sha256 : String)
  /-- No symbolic link. -/
  regular : Bool
  /-- The walk comes to it, and its size can be queried. -/
  readable : Bool
deriving DecidableEq

structure MoveScanDirectoryOptions where
  dryRun : Bool
  sizeToleranceBytes : Int
  softDeleteUnmatched : Bool

structure Answers where
  (connects loads : Bool)
  relocates : String → Bool
  (renames cleans : Bool)
  (deletesBlob deletesSongs : String → Bool)

structure MoveScanDirectoryResult where
  (oldPath newPath : Path)
  blobsUnderOld : Nat
  relocatedExactPath : Nat := 0
  relocatedParent : Nat := 0
  relocatedFilename : Nat := 0
  ambiguousSkipped : Nat := 0
  newFilesUnmatched : Nat := 0
  unmatchedOldBlobs : Nat := 0
  unmatchedOldBlobsSoftDeleted : Nat := 0
  fsStoreRefreshFailures : Nat := 0
  dryRun : Bool

inductive Response
  | success (result : MoveScanDirectoryResult)
  | failure (message : String) (path : Option Path)

inductive MatchTier
  | exactPath
  | parent
  | filename

structure OldBlob where
  id : String
  localPath : Path
  (relPath parentAndName filename : List UInt8)
  size : Int
deriving DecidableEq

def lossy (name : Name) : Name := (Utf8.fromUtf8Lossy name).1

def slashed (rel : Path) : List UInt8 :=
  ([0x2F].intercalate (rel.map lossy)).map fun byte => if byte = 0x5C then 0x2F else byte

def fileName (path : Path) : Name := lossy (path.getLast?.getD [])

def parentAndName (rel : Path) (filename : Name) : List UInt8 :=
  match rel.dropLast.getLast? with
  | some parent => lossy parent ++ 0x2F :: filename
  | none => filename

def stripPrefix (root path : Path) : Option Path :=
  if root <+: path then some (path.drop root.length) else none

def MediaBlob.recordedSize (row : MediaBlob) : Option Int := row.size <|> row.fileSize

def oldBlob (oldRoot : Path) (row : MediaBlob) : Option OldBlob :=
  if row.deleted then none
  else do
    let path ← row.localPath
    let rel ← stripPrefix oldRoot path
    return {
      id := row.id
      localPath := path
      relPath := slashed rel
      parentAndName := parentAndName rel (fileName path)
      filename := fileName path
      size := row.recordedSize.getD 0 }

def viable (key : OldBlob → List UInt8) (value : List UInt8) (consumed : List String)
    (old : List OldBlob) (targetSize tolerance : Int) : List OldBlob :=
  old.filter fun blob => key blob = value && blob.id ∉ consumed &&
    decide (((blob.size - targetSize).natAbs : Int) ≤ tolerance)

def pickMatch (key : OldBlob → List UInt8) (value : List UInt8) (consumed : List String)
    (old : List OldBlob) (targetSize tolerance : Int) : Option OldBlob :=
  match viable key value consumed old targetSize tolerance with
  | [blob] => some blob
  | _ => none

def ambiguousAny (key : OldBlob → List UInt8) (value : List UInt8) (consumed : List String)
    (old : List OldBlob) (targetSize tolerance : Int) : Bool :=
  1 < (viable key value consumed old targetSize tolerance).length

def extension (name : Name) : Option Name :=
  match name.reverse.dropWhile (· ≠ 0x2E) with
  | _ :: _ :: _ => some (name.reverse.takeWhile (· ≠ 0x2E)).reverse
  | _ => none

def lowerByte (byte : UInt8) : UInt8 := if 0x41 ≤ byte ∧ byte ≤ 0x5A then byte + 0x20 else byte

def isAudioName (formats : List Name) (name : Name) : Bool :=
  !(Utf8.isUtf8 name && name.head? = some 0x2E) &&
    (extension name).any fun ext => Utf8.isUtf8 ext &&
      formats.any fun format => format.map lowerByte = ext.map lowerByte

structure Move where
  (oldRoot newRoot : Path)
  /-- The new root is a directory. -/
  isDir : Bool
  /-- The files of the new tree, in the order of the walk. -/
  tree : List File
  opts : MoveScanDirectoryOptions
  supportedAudioFormats : List Name
  answers : Answers
  library : Library

structure Walk where
  library : Library
  consumed : List String
  result : MoveScanDirectoryResult

namespace MoveScanDirectoryResult

def count (result : MoveScanDirectoryResult) : MatchTier → MoveScanDirectoryResult
  | .exactPath => { result with relocatedExactPath := result.relocatedExactPath + 1 }
  | .parent => { result with relocatedParent := result.relocatedParent + 1 }
  | .filename => { result with relocatedFilename := result.relocatedFilename + 1 }

def uncount (result : MoveScanDirectoryResult) : MatchTier → MoveScanDirectoryResult
  | .exactPath => { result with relocatedExactPath := result.relocatedExactPath - 1 }
  | .parent => { result with relocatedParent := result.relocatedParent - 1 }
  | .filename => { result with relocatedFilename := result.relocatedFilename - 1 }

end MoveScanDirectoryResult

namespace Move

variable (move : Move)

def oldBlobs : List OldBlob := move.library.blobs.rows.filterMap (oldBlob move.oldRoot)

def considers (file : File) : Bool :=
  file.regular && file.readable &&
    file.rel.getLast?.any (isAudioName move.supportedAudioFormats)

def newPath (file : File) : Path := move.newRoot ++ file.rel.map lossy

def choose (consumed : List String) (file : File) : Option (OldBlob × MatchTier) :=
  let tolerance := move.opts.sizeToleranceBytes
  let filename := fileName file.rel
  ((pickMatch OldBlob.relPath (slashed file.rel) consumed move.oldBlobs file.size tolerance).map
      (·, MatchTier.exactPath)).or <|
    ((pickMatch OldBlob.parentAndName (parentAndName file.rel filename) consumed move.oldBlobs
      file.size tolerance).map (·, MatchTier.parent)).or <|
    (pickMatch OldBlob.filename filename consumed move.oldBlobs file.size 0).map
      (·, MatchTier.filename)

def hadAmbig (consumed : List String) (file : File) : Bool :=
  let tolerance := move.opts.sizeToleranceBytes
  let filename := fileName file.rel
  ambiguousAny OldBlob.relPath (slashed file.rel) consumed move.oldBlobs file.size tolerance ||
    ambiguousAny OldBlob.parentAndName (parentAndName file.rel filename) consumed move.oldBlobs
      file.size tolerance ||
    ambiguousAny OldBlob.filename filename consumed move.oldBlobs file.size 0

/-- The row may go to the path: nothing fails, and a recorded blake3 is that of the file there. -/
def verifies (path : Path) (row : MediaBlob) : Bool :=
  move.answers.relocates row.id && row.blake3.all fun hash =>
    move.tree.any fun file => move.newRoot ++ file.rel = path && file.blake3 = hash

def relocated (path : Path) (size : Int) (row : MediaBlob) : MediaBlob :=
  { row with
    localPath := some path
    filename := path.getLast?.or row.filename
    size := some size }

def relocateBlob (id : String) (path : Path) (size : Int) (library : Library) : Option Library :=
  if (library.blobs.get id).any (move.verifies path) then
    some { library with
      blobs := library.blobs.update (·.id = id) (relocated path size) fun _ => rfl }
  else none

def take (file : File) (blob : OldBlob) (tier : MatchTier) (walk : Walk) : Walk :=
  let walk := { walk with consumed := blob.id :: walk.consumed, result := walk.result.count tier }
  if move.opts.dryRun then walk
  else match move.relocateBlob blob.id (move.newPath file) file.size walk.library with
    | some library => { walk with library }
    | none => { walk with result := { walk.result.uncount tier with
        fsStoreRefreshFailures := walk.result.fsStoreRefreshFailures + 1 } }

def visit (file : File) (walk : Walk) : Walk :=
  if move.considers file then
    match move.choose walk.consumed file with
    | some (blob, tier) => move.take file blob tier walk
    | none =>
      if move.hadAmbig walk.consumed file then { walk with result := { walk.result with
        ambiguousSkipped := walk.result.ambiguousSkipped + 1 } }
      else { walk with result := { walk.result with
        newFilesUnmatched := walk.result.newFilesUnmatched + 1 } }
  else walk

def start : Walk where
  library := move.library
  consumed := []
  result := {
    oldPath := move.oldRoot
    newPath := move.newRoot
    blobsUnderOld := move.oldBlobs.length
    dryRun := move.opts.dryRun }

def walked : Walk := runAll move.visit move.tree move.start

def unmatchedIds : List String :=
  (move.oldBlobs.filter fun blob => blob.id ∉ move.walked.consumed).map OldBlob.id

end Move

end Tomb.Grimoire.Music.Scanner
