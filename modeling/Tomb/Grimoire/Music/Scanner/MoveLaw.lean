import Tomb.Grimoire.Music.Scanner.MovePicks

/-! What a move of a scanned directory keeps of the library. -/
namespace Tomb.Grimoire.Music.Scanner
open Lib

/-- A blake3 tells the content, where it is recorded; else the sha256 of older rows does. -/
def MediaBlob.HasContent (row : MediaBlob) (file : File) : Prop :=
  match row.blake3 with
  | some hash => file.blake3 = hash
  | none => ∀ hash ∈ row.sha256, file.sha256 = hash

namespace Move

variable (move : Move)

/-- The path names a file under the new root with the row's content. -/
def Holds (row : MediaBlob) (path : Path) : Prop :=
  ∃ file ∈ move.tree, move.newRoot ++ file.rel = path ∧ row.HasContent file

/-- The file at the row's relative path under the new root, with its recorded size and content. -/
def Own (row : MediaBlob) (file : File) : Prop :=
  file ∈ move.tree ∧ row.localPath = some (move.oldRoot ++ file.rel) ∧
    row.recordedSize = some file.size ∧ row.HasContent file

structure Moved (before after : Library) : Prop where
  own : ∀ row ∈ before.blobs, row.deleted = false → ∀ file, move.Own row file →
    ∃ row' ∈ after.blobs, row'.id = row.id ∧ row'.deleted = false ∧
      ∃ path, row'.localPath = some path ∧ move.Holds row path
  deleted : ∀ row ∈ before.blobs, row.deleted = false → ∀ row' ∈ after.blobs, row'.id = row.id →
    row'.deleted = true → row.Under move.oldRoot ∧ ∀ file, ¬ move.Own row file
  relocated : ∀ row ∈ before.blobs, row.deleted = false → ∀ row' ∈ after.blobs, row'.id = row.id →
    row' ≠ row → row'.deleted = false → ∀ hash ∈ row'.blake3, ∃ path, row'.localPath = some path ∧
      ∃ file ∈ move.tree, move.newRoot ++ file.rel = path ∧ file.blake3 = hash
  outside : ∀ row ∈ before.blobs, ¬ row.Under move.oldRoot → row ∈ after.blobs

structure Kept (outcome : Response × Library) : Prop where
  success : ∀ result, outcome.1 = .success result → move.Moved move.library outcome.2
  failure : ∀ message path, outcome.1 = .failure message path → ∀ row ∈ move.library.blobs,
    row.deleted = false → ∃ row' ∈ outcome.2.blobs, row'.id = row.id ∧ row'.deleted = false

@[grind =] def deletesUnmatched (row : MediaBlob) : Bool :=
  move.opts.softDeleteUnmatched && decide (row.id ∈ move.unmatchedIds) &&
    move.answers.deletesBlob row.id

@[grind =] def final (row : MediaBlob) : MediaBlob :=
  let row := move.afterPicks (move.picks [] move.tree) row
  if move.deletesUnmatched row then { row with deleted := true } else row

variable {move}

variable {row : MediaBlob}

/-- Where a row that has its own file is found behind the walk: picked by a file whose path holds
its content, or passed over and yet kept, at a path that does. -/
def Found (move : Move) (row : MediaBlob) : Prop :=
  (∃ pick ∈ move.picks [] move.tree, pick.2.id = row.id ∧
    move.Holds row (move.newPath pick.1)) ∨
  ((∀ pick ∈ move.picks [] move.tree, pick.2.id ≠ row.id) ∧
    (move.opts.softDeleteUnmatched = false ∨ move.answers.deletesBlob row.id = false) ∧
    ∃ path, row.localPath = some path ∧ move.Holds row path)

section Examples

def bytes (text : String) : Name := text.toUTF8.toList

def folder (name : String) : Move where
  oldRoot := [bytes "home", bytes "Music"]
  newRoot := [bytes "mnt", bytes "Music"]
  isDir := true
  tree := [⟨[bytes name], 10, "hash", "", true, true⟩]
  opts := ⟨false, 2048, true⟩
  supportedAudioFormats := [bytes "mp3", bytes "flac"]
  answers := ⟨true, true, fun _ => true, true, true, fun _ => true, fun _ => true⟩
  library := {
    blobs := ⟨[⟨"blob", some [bytes "home", bytes "Music", bytes name], some 10, none,
      some (bytes name), some "hash", none, false⟩], List.nodup_singleton _⟩
    songs := [⟨"blob", false⟩]
    scannedDirectories := [[bytes "home", bytes "Music"]] }

end Examples

end Move

end Tomb.Grimoire.Music.Scanner
