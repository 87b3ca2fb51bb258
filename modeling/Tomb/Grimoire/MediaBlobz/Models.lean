import Mathlib.Data.List.Nodup

/-! Grimoire's media blobs: paths, rows and the table that holds them. -/
namespace Tomb.Grimoire.MediaBlobz

@[ext]
structure Path where
  chars : List Char
  noNul : '\x00' ∉ chars
  deriving DecidableEq

def Path.isAbsolute (path : Path) : Bool := path.chars.head? = some '/'

inductive BlobType where
  | original
  | thumbnail
  | waveform
  | preview
  | rendition
  | subtitle

structure MediaBlob where
  id : String
  localPath : Option Path
  blobType : BlobType
  blake3 : Option String
  deleted : Bool

@[ext]
structure Table where
  rows : List MediaBlob
  ids : (rows.map MediaBlob.id).Nodup
  hashes : (rows.filterMap MediaBlob.blake3).Nodup

namespace Table

def getMediaBlob (table : Table) (id : String) : Option MediaBlob :=
  table.rows.find? (·.id = id)

def getMediaBlobByBlake3 (table : Table) (blake3 : String) : Option MediaBlob :=
  table.rows.find? fun row => row.blake3 = some blake3 && !row.deleted

def update (table : Table) (change : MediaBlob → MediaBlob)
    (sameId : ∀ row, (change row).id = row.id) (sameHash : ∀ row, (change row).blake3 = row.blake3) :
    Table where
  rows := table.rows.map change
  ids := by
    have same : (table.rows.map change).map MediaBlob.id = table.rows.map MediaBlob.id := by
      rw [List.map_map]
      exact List.map_congr_left fun row _ => sameId row
    rw [same]
    exact table.ids
  hashes := by
    have same : (table.rows.map change).filterMap MediaBlob.blake3 =
        table.rows.filterMap MediaBlob.blake3 := by
      rw [List.filterMap_map]
      exact List.filterMap_congr fun row _ => sameHash row
    rw [same]
    exact table.hashes

def updateWhereId (table : Table) (id : String) (change : MediaBlob → MediaBlob)
    (sameId : ∀ row, (change row).id = row.id) (sameHash : ∀ row, (change row).blake3 = row.blake3) :
    Table :=
  table.update (fun row => if row.id = id then change row else row)
    (fun row => by
      split
      · exact sameId row
      · rfl)
    (fun row => by
      split
      · exact sameHash row
      · rfl)

def insert (table : Table) (row : MediaBlob) : Option Table :=
  if fresh : row.id ∉ table.rows.map MediaBlob.id ∧
      ((row :: table.rows).filterMap MediaBlob.blake3).Nodup then
    some ⟨row :: table.rows, List.nodup_cons.mpr ⟨fresh.1, table.ids⟩, fresh.2⟩
  else none

def delete (table : Table) (id : String) : Table where
  rows := table.rows.filter (·.id ≠ id)
  ids := table.ids.sublist (List.filter_sublist.map _)
  hashes := table.hashes.sublist (List.filter_sublist.filterMap _)

def localPath (table : Table) (id : String) : Option Path :=
  (table.getMediaBlob id).bind MediaBlob.localPath

theorem getMediaBlob_update (table : Table) (change : MediaBlob → MediaBlob)
    (sameId : ∀ row, (change row).id = row.id) (sameHash : ∀ row, (change row).blake3 = row.blake3)
    (id : String) :
    (table.update change sameId sameHash).getMediaBlob id =
      (table.getMediaBlob id).map change := by
  have same : (fun row => decide ((change row).id = id)) = fun row => decide (row.id = id) := by
    funext row
    rw [sameId]
  rw [getMediaBlob, update, List.find?_map, Function.comp_def, same]
  rfl

theorem getMediaBlob_eq_some_iff {table : Table} {id : String} {row : MediaBlob} :
    table.getMediaBlob id = some row ↔ row ∈ table.rows ∧ row.id = id := by
  constructor
  · intro found
    exact ⟨List.mem_of_find?_eq_some found, by simpa using List.find?_some found⟩
  · rintro ⟨member, rfl⟩
    cases found : table.getMediaBlob row.id with
    | none =>
      have absent := List.find?_eq_none.mp found row member
      simp at absent
    | some other =>
      have same : other.id = row.id := by simpa using List.find?_some found
      exact congrArg some
        (List.inj_on_of_nodup_map table.ids (List.mem_of_find?_eq_some found) member same)

end Table

end Tomb.Grimoire.MediaBlobz
