import Tomb.Reliquary.Blobz

/-! When an operation of the blob store, run alone, keeps a file with the right content behind
each row. -/
namespace Tomb.Reliquary
open Tomb.Lib

namespace SqliteBlobStore

variable {π ε : Type} (store : SqliteBlobStore π ε)

@[grind =] def Backed (drive : Drive ε Bytes) (row : BlobRecord) : Prop :=
  ∃ bytes, drive.read (store.fileOf row) = some bytes ∧ store.hash bytes = row.blake3

instance (drive : Drive ε Bytes) (row : BlobRecord) : Decidable (store.Backed drive row) :=
  match there : drive.read (store.fileOf row) with
  | some bytes => decidable_of_iff (store.hash bytes = row.blake3) (by simp [Backed, there])
  | none => .isFalse (by simp [Backed, there])

def Kept (s : Blobz ε) : Prop := ∀ row ∈ s.rows, store.Backed s.drive row

instance (s : Blobz ε) : Decidable (store.Kept s) :=
  inferInstanceAs (Decidable (∀ row ∈ s.rows.rows, store.Backed s.drive row))

end SqliteBlobStore

inductive BlobOp (π : Type) where
  | insert (bytes : Bytes) (info : NewBlobMeta) (now : Int)
  | adoptLocalFile (path : π) (info : NewBlobMeta) (now : Int)
  | registerExternalPath (absPath : π) (info : NewBlobMeta) (cancelled : Bool) (now : Int)
  | registerIngested (blake3 : Digest) (info : NewBlobMeta) (now : Int)
  | softDelete (blake3s : List Digest) (actor : String) (now : Int)
  | restore (blake3s : List Digest)
  | hardDeleteSoftDeleted (blake3s : Option (List Digest))

inductive BlobAnswer where
  | record (record : BlobRecord)
  | outcome (outcome : SoftDeleteOutcome)

namespace BlobOp

variable {π ε : Type} [DecidableEq ε] (store : SqliteBlobStore π ε)

@[grind =] def prog : BlobOp π → BlobProg ε BlobAnswer
  | .insert bytes info now => do return .record (← store.insert bytes info now)
  | .adoptLocalFile path info now => do return .record (← store.adoptLocalFile path info now)
  | .registerExternalPath absPath info cancelled now => do
    return .record (← store.registerExternalPath absPath info cancelled now)
  | .registerIngested blake3 info now => do
    return .record (← store.registerIngested blake3 info now)
  | .softDelete blake3s actor now => do
    return .outcome (← SqliteBlobStore.softDelete blake3s actor now)
  | .restore blake3s => do return .outcome (← SqliteBlobStore.restore blake3s)
  | .hardDeleteSoftDeleted blake3s => do
    return .outcome (← store.hardDeleteSoftDeleted blake3s)

/-- The operation, run alone, leaves every row its file; and if it takes over a local file, the
record it returns leads to the bytes of that file. -/
@[grind =] def KeepsFiles (op : BlobOp π) (s : Blobz ε) : Prop :=
  store.Kept ((op.prog store).run s).2 ∧
    ∀ path info now record, op = .adoptLocalFile path info now →
      ((op.prog store).run s).1 = .ok (.record record) →
      ∃ bytes, s.drive.read (store.place path) = some bytes ∧
        ((op.prog store).run s).2.drive.read (store.fileOf record) = some bytes

/-- No row's file is where the operation writes or removes one, and what it records is what it
will find. -/
@[grind =] def Clear (s : Blobz ε) : BlobOp π → Prop
  | .insert bytes _ _ =>
    s.rows.get (store.hash bytes) = none →
      ∀ row ∈ s.rows, store.fileOf row ≠ store.canonical (store.hash bytes)
  | .adoptLocalFile path _ _ =>
    ∀ bytes, s.drive.read (store.place path) = some bytes →
      match s.rows.get (store.hash bytes) with
      | some _ => ∀ row ∈ s.rows, store.fileOf row ≠ store.place path
      | none => ∀ row ∈ s.rows, store.fileOf row ≠ store.canonical (store.hash bytes)
  | .registerExternalPath absPath _ cancelled _ =>
    store.isAbsolute absPath = true → cancelled = false →
      ∀ bytes, s.drive.read (store.place absPath) = some bytes →
        s.rows.get (store.hash bytes) = none →
        s.drive.read (store.place (store.ofText (store.toStringLossy absPath))) = some bytes
  | .registerIngested blake3 _ _ =>
    s.rows.get blake3 = none →
      ∀ bytes, s.drive.read (store.canonical blake3) = some bytes → store.hash bytes = blake3
  | .softDelete _ _ _ => True
  | .restore _ => True
  | .hardDeleteSoftDeleted _ => True

end BlobOp

namespace SqliteBlobStore

variable {π ε : Type} {store : SqliteBlobStore π ε} {s : Blobz ε}

variable {row : BlobRecord}

theorem fileOf_managed (managed : row.external = false)
    (path : row.path = relPath row.blake3) : store.fileOf row = store.canonical row.blake3 := by
  simp [fileOf, pathFor, canonical, managed, path]

theorem Kept.eq_of_file (kept : store.Kept s) {a b : BlobRecord} (ha : a ∈ s.rows)
    (hb : b ∈ s.rows) (same : store.fileOf a = store.fileOf b) : a = b := by
  obtain ⟨bytes, there, hashed⟩ := kept a ha
  obtain ⟨bytes', there', hashed'⟩ := kept b hb
  rw [same, there'] at there
  cases there
  exact s.rows.eq_of_key_eq ha hb (hashed.symm.trans hashed')

theorem Kept.get_hash (kept : store.Kept s) (present : row ∈ s.rows)
    {bytes : Bytes} (there : s.drive.read (store.fileOf row) = some bytes) :
    s.rows.get (store.hash bytes) = some row := by
  obtain ⟨bytes', there', hashed⟩ := kept row present
  rw [there'] at there
  cases there
  exact (Table.get_eq_some _ _ _).mpr ⟨present, hashed.symm⟩

theorem kept_insert {rows rows' : Table BlobRecord.blake3} {drive : Drive ε Bytes} (added : rows.insert row = some rows') :
    store.Kept ⟨rows', drive⟩ ↔ store.Kept ⟨rows, drive⟩ ∧ store.Backed drive row := by
  constructor
  · intro kept
    refine ⟨fun old present => ?_, ?_⟩
    · exact kept old ((Table.insert_eq_some _ _ _ added _).mpr (.inl present))
    · exact kept row ((Table.insert_eq_some _ _ _ added _).mpr (.inr rfl))
  · rintro ⟨kept, backed⟩ old present
    rcases (Table.insert_eq_some _ _ _ added _).mp present with present | rfl
    · exact kept old present
    · exact backed

theorem Kept.updateRow (kept : store.Kept s) (blake3 : Digest) (p : BlobRecord → Bool)
    (f : BlobRecord → BlobRecord) (keeps : ∀ row, (f row).blake3 = row.blake3)
    (files : ∀ row, store.fileOf (f row) = store.fileOf row) :
    store.Kept (s.updateRow blake3 p f keeps).2 := by
  intro row present
  obtain ⟨old, known, rfl⟩ := (Table.mem_update _ _ _ keeps _).mp present
  obtain ⟨bytes, there, hashed⟩ := kept old known
  split
  · exact ⟨bytes, (files old).symm ▸ there, hashed.trans (keeps old).symm⟩
  · exact ⟨bytes, there, hashed⟩

theorem kept_move_iff (kept : store.Kept s) {path : π} {bytes : Bytes} {drive : Drive ε Bytes}
    (there : s.drive.read (store.place path) = some bytes)
    (fresh : s.rows.get (store.hash bytes) = none)
    (moved : drive.read (store.canonical (store.hash bytes)) = some bytes)
    (others : ∀ entry, entry ≠ store.canonical (store.hash bytes) → entry ≠ store.place path →
      drive.read entry = s.drive.read entry) :
    store.Kept ⟨s.rows, drive⟩ ↔
      ∀ row ∈ s.rows, store.fileOf row ≠ store.canonical (store.hash bytes) := by
  constructor
  · intro kept' row present same
    obtain ⟨found, here, hashed⟩ := kept' row present
    simp only [same, moved, Option.some.injEq] at here
    subst here
    exact (Table.get_eq_none _ _).mp fresh row present hashed.symm
  · intro clear row present
    obtain ⟨found, here, hashed⟩ := kept row present
    have other : store.fileOf row ≠ store.place path := by
      intro same
      have recorded := kept.get_hash present (same ▸ there)
      rw [fresh] at recorded
      cases recorded
    exact ⟨found, (others _ (clear row present) other).trans here, hashed⟩

variable [DecidableEq ε]

theorem backed_write (drive : Drive ε Bytes) (entry : ε) (content : Bytes) (row : BlobRecord) :
    store.Backed (drive.write entry content) row ↔
      if store.fileOf row = entry then store.hash content = row.blake3
      else store.Backed drive row := by
  unfold Backed
  rw [Drive.read_write]
  split
  · simp
  · rfl

theorem backed_remove (drive : Drive ε Bytes) (entry : ε) (row : BlobRecord) :
    store.Backed (drive.remove entry) row ↔
      store.fileOf row ≠ entry ∧ store.Backed drive row := by
  unfold Backed
  rw [Drive.read_remove]
  split
  · rename_i same
    simp [same]
  · rename_i differs
    simp [differs]

theorem run_insertRow (blake3 irohHash : Digest) (path : List Char) (size : Nat)
    (external : Bool) (info : NewBlobMeta) (now : Int) (fresh : s.rows.get blake3 = none) :
    ∃ row rows, row.blake3 = blake3 ∧ row.path = path ∧ row.external = external ∧
      (row.size = size ∧ row.softDeleted = false) ∧ s.rows.insert row = some rows ∧
      (insertRow blake3 irohHash path size external info now : BlobProg ε BlobRecord).run s =
        (.ok row, { s with rows }) := by
  let row : BlobRecord := {
    blake3, irohHash := some irohHash, size, path, external, info
    createdAt := now, softDeletedAt := none, softDeletedBy := none }
  cases added : s.rows.insert row with
  | none =>
    obtain ⟨old, present, same⟩ := (Table.insert_eq_none _ _).mp added
    exact absurd same ((Table.get_eq_none _ _).mp fresh old present)
  | some rows =>
    have found : rows.get blake3 = some row := by
      rw [Table.get_insert _ _ _ added, if_pos rfl]
    refine ⟨row, rows, rfl, rfl, rfl, ⟨rfl, rfl⟩, added, ?_⟩
    simp only [insertRow, Prog.run_bind, Prog.run_issue, Blobz.machine_exec, Blobz.exec]
    rw [show s.rows.insert _ = some rows from added]
    simp only [Option.getD_some, found, Prog.run_ret]

theorem kept_write_iff (kept : store.Kept s) (bytes : Bytes)
    (fresh : s.rows.get (store.hash bytes) = none) :
    store.Kept ⟨s.rows, s.drive.write (store.canonical (store.hash bytes)) bytes⟩ ↔
      ∀ row ∈ s.rows, store.fileOf row ≠ store.canonical (store.hash bytes) := by
  have unrecorded := (Table.get_eq_none _ _).mp fresh
  constructor
  · intro kept' row present same
    have backed := (backed_write _ _ _ _).mp (kept' row present)
    rw [if_pos same] at backed
    exact unrecorded row present backed.symm
  · intro clear row present
    refine (backed_write _ _ _ _).mpr ?_
    rw [if_neg (clear row present)]
    exact kept row present

theorem insert_keeps_iff (kept : store.Kept s) (bytes : Bytes) (info : NewBlobMeta) (now : Int) :
    store.Kept ((store.insert bytes info now).run s).2 ↔
      BlobOp.Clear store s (.insert bytes info now) := by
  unfold insert
  cases found : s.rows.get (store.hash bytes) with
  | some existing =>
    simp [Blobz.exec, found, kept, BlobOp.Clear]
  | none =>
    let s' : Blobz ε := ⟨s.rows, s.drive.write (store.canonical (store.hash bytes)) bytes⟩
    obtain ⟨row, rows, hashed, path, external, -, added, ran⟩ := run_insertRow (s := s')
      (store.hash bytes) (store.hash bytes) (relPath (store.hash bytes)) bytes.length false info now
      found
    have backed : store.Backed s'.drive row := by
      refine (backed_write _ _ _ _).mpr ?_
      rw [fileOf_managed external (path.trans (congrArg relPath hashed.symm)), hashed, if_pos rfl]
    have clear := kept_write_iff kept bytes found
    simp only [Prog.run_bind, Prog.run_issue, Blobz.machine_exec, Blobz.exec, found]
    rw [ran, kept_insert added, and_iff_left backed, clear]
    simp [BlobOp.Clear, found]

theorem repairSize_keeps (kept : store.Kept s) (existing : BlobRecord) :
    store.Kept ((store.repairSize existing).run s).2 := by
  unfold repairSize
  split
  · exact kept
  · simp only [Prog.run_bind, Prog.run_issue, Blobz.machine_exec, Blobz.exec]
    cases s.drive.read (store.canonical existing.blake3) with
    | none => exact kept
    | some bytes =>
      simp only [Option.map_some]
      split
      · have repaired := kept.updateRow existing.blake3 (fun _ => true)
          (fun row => { row with size := bytes.length }) (fun _ => rfl) fun _ => rfl
        simp only [Prog.run_bind, Prog.run_issue, Blobz.machine_exec, Blobz.exec]
        split
        · exact repaired
        · exact repaired
      · exact kept

theorem registerIngested_keeps_iff (kept : store.Kept s) (blake3 : Digest) (info : NewBlobMeta)
    (now : Int) : store.Kept ((store.registerIngested blake3 info now).run s).2 ↔
      BlobOp.Clear store s (.registerIngested blake3 info now) := by
  unfold registerIngested
  cases found : s.rows.get blake3 with
  | some existing =>
    have repaired := repairSize_keeps kept existing
    simp only [Prog.run_bind, Prog.run_issue, Blobz.machine_exec, Blobz.exec, found]
    simp [BlobOp.Clear, found, repaired]
  | none =>
    cases there : s.drive.read (store.canonical blake3) with
    | none =>
      simp [Blobz.exec, found, there, kept, BlobOp.Clear]
    | some bytes =>
      obtain ⟨row, rows, hashed, path, external, -, added, ran⟩ := run_insertRow (s := s) blake3
        blake3 (relPath blake3) bytes.length false info now found
      have file : store.fileOf row = store.canonical blake3 := by
        rw [fileOf_managed external (path.trans (congrArg relPath hashed.symm)), hashed]
      simp only [Prog.run_bind, Prog.run_issue, Blobz.machine_exec, Blobz.exec, found, there,
        Option.map_some]
      rw [ran, kept_insert added, and_iff_right kept]
      simp [BlobOp.Clear, Backed, file, found, there, hashed]

theorem repairPath_run (kept : store.Kept s) {existing : BlobRecord} (present : existing ∈ s.rows)
    (path : List Char) : (store.repairPath existing path).run s = (.ok existing, s) := by
  unfold repairPath
  split
  · rename_i external
    obtain ⟨bytes, there, -⟩ := kept existing present
    rw [fileOf, pathFor, if_pos external] at there
    simp [Blobz.exec, there]
  · rfl

theorem registerExternalPath_keeps_iff (kept : store.Kept s) (absPath : π) (info : NewBlobMeta)
    (cancelled : Bool) (now : Int) :
    store.Kept ((store.registerExternalPath absPath info cancelled now).run s).2 ↔
      BlobOp.Clear store s (.registerExternalPath absPath info cancelled now) := by
  unfold registerExternalPath
  by_cases absolute : store.isAbsolute absPath = true
  · cases there : s.drive.read (store.place absPath) with
    | none => simp [Blobz.exec, absolute, there, kept, BlobOp.Clear]
    | some bytes =>
      cases cancelled with
      | true => simp [Blobz.exec, absolute, there, kept, BlobOp.Clear]
      | false =>
        cases found : s.rows.get (store.hash bytes) with
        | some existing =>
          have ran := repairPath_run kept ((Table.get_eq_some _ _ _).mp found).1
            (store.toStringLossy absPath)
          simp [Blobz.exec, absolute, there, found, ran, kept, BlobOp.Clear]
        | none =>
          obtain ⟨row, rows, hashed, path, external, -, added, ran⟩ := run_insertRow (s := s)
            (store.hash bytes) (store.hash bytes) (store.toStringLossy absPath) bytes.length true
            info now found
          have file : store.fileOf row =
              store.place (store.ofText (store.toStringLossy absPath)) := by
            simp [fileOf, pathFor, external, path]
          have backed : store.Backed s.drive row ↔
              s.drive.read (store.place (store.ofText (store.toStringLossy absPath))) =
                some bytes := by
            unfold Backed
            rw [file, hashed]
            constructor
            · rintro ⟨other, found', same⟩
              rw [found', store.collisionFree same]
            · exact fun found' => ⟨bytes, found', rfl⟩
          simp only [if_pos absolute, Prog.run_bind, Prog.run_issue, Blobz.machine_exec,
            Blobz.exec, there, found, Bool.false_eq_true, if_false]
          rw [ran, kept_insert added, and_iff_right kept, backed]
          simp [BlobOp.Clear, absolute, there, found]
  · simp [absolute, kept, BlobOp.Clear]

theorem run_moveFile {path : π} {bytes : Bytes} (blake3 : Digest)
    (there : s.drive.read (store.place path) = some bytes) :
    ∃ drive, (store.moveFile path blake3).run s = (.ok (), { s with drive }) ∧
      drive.read (store.canonical blake3) = some bytes ∧
      ∀ entry, entry ≠ store.canonical blake3 → entry ≠ store.place path →
        drive.read entry = s.drive.read entry := by
  unfold moveFile
  cases renamed : s.drive.rename (store.place path) (store.canonical blake3) with
  | some drive =>
    refine ⟨drive, ?_, ?_, ?_⟩
    · simp [Blobz.exec, Blobz.replaceDrive, renamed]
    · rw [Drive.read_rename renamed, if_pos rfl, there]
    · intro entry elsewhere other
      rw [Drive.read_rename renamed, if_neg elsewhere, if_neg other]
  | none =>
    -- A rename that is refused here crosses devices, so the two entries differ.
    have distinct : store.canonical blake3 ≠ store.place path := by
      intro same
      obtain ⟨moved, done⟩ := Drive.rename_isSome
        (congrArg s.drive.device same.symm) there
      rw [renamed] at done
      cases done
    have copied : s.drive.copy (store.place path) (store.canonical blake3) =
        some (s.drive.write (store.canonical blake3) bytes) := by
      simp [Drive.copy, there]
    refine ⟨(s.drive.write (store.canonical blake3) bytes).remove (store.place path), ?_, ?_, ?_⟩
    · simp [Blobz.exec, Blobz.replaceDrive, renamed, copied]
    · rw [Drive.read_remove, if_neg distinct, Drive.read_write, if_pos rfl]
    · intro entry elsewhere other
      rw [Drive.read_remove, if_neg other, Drive.read_write, if_neg elsewhere]

theorem kept_remove_iff (kept : store.Kept s) (entry : ε) :
    store.Kept ⟨s.rows, s.drive.remove entry⟩ ↔ ∀ row ∈ s.rows, store.fileOf row ≠ entry := by
  constructor
  · exact fun kept' row present => ((backed_remove _ _ _).mp (kept' row present)).1
  · exact fun clear row present => (backed_remove _ _ _).mpr ⟨clear row present, kept row present⟩

theorem adoptLocalFile_keeps_iff (kept : store.Kept s) (path : π) (info : NewBlobMeta)
    (now : Int) : BlobOp.KeepsFiles store (.adoptLocalFile path info now) s ↔
      BlobOp.Clear store s (.adoptLocalFile path info now) := by
  cases there : s.drive.read (store.place path) with
  | none =>
    have ran : (store.adoptLocalFile path info now).run s = (.error noSuchFile, s) := by
      simp [adoptLocalFile, Blobz.exec, there]
    simp [BlobOp.KeepsFiles, BlobOp.prog, BlobOp.Clear, ran, kept, there]
  | some bytes =>
    cases found : s.rows.get (store.hash bytes) with
    | some existing =>
      have ran : (store.adoptLocalFile path info now).run s =
          (.ok existing, ⟨s.rows, s.drive.remove (store.place path)⟩) := by
        simp [adoptLocalFile, Blobz.exec, there, found]
      have present := ((Table.get_eq_some _ _ _).mp found).1
      have clear := kept_remove_iff kept (store.place path)
      have readable (safe : ∀ row ∈ s.rows, store.fileOf row ≠ store.place path) :
          (s.drive.remove (store.place path)).read (store.fileOf existing) = some bytes := by
        obtain ⟨found', here, hashed⟩ := kept existing present
        have same : found' = bytes :=
          store.collisionFree (hashed.trans ((Table.get_eq_some _ _ _).mp found).2)
        rw [Drive.read_remove, if_neg (safe existing present), here, same]
      simp only [BlobOp.KeepsFiles, BlobOp.prog, BlobOp.Clear, Prog.pure_def, Prog.run_bind, ran,
        Prog.run_ret, clear, there, Option.some.injEq, forall_eq', found]
      refine and_iff_left_of_imp fun safe => ?_
      rintro path' info' now' record same returned
      cases same
      cases returned
      exact ⟨bytes, there, readable safe⟩
    | none =>
      obtain ⟨drive, moved, here, others⟩ := run_moveFile (store.hash bytes) there
      obtain ⟨row, rows, hashed, place, external, -, added, ran'⟩ := run_insertRow
        (s := { s with drive }) (store.hash bytes) (store.hash bytes)
        (relPath (store.hash bytes)) bytes.length false info now found
      have file : store.fileOf row = store.canonical (store.hash bytes) := by
        rw [fileOf_managed external (place.trans (congrArg relPath hashed.symm)), hashed]
      have backed : store.Backed drive row := ⟨bytes, file ▸ here, hashed.symm⟩
      have ran : (store.adoptLocalFile path info now).run s = (.ok row, ⟨rows, drive⟩) := by
        simp only [adoptLocalFile, Prog.run_bind, Prog.run_issue, Blobz.machine_exec, Blobz.exec,
          there, found, moved, ran']
      simp only [BlobOp.KeepsFiles, BlobOp.prog, BlobOp.Clear, Prog.pure_def, Prog.run_bind, ran,
        Prog.run_ret, kept_insert added, and_iff_left backed,
        kept_move_iff kept there found here others, there, Option.some.injEq, forall_eq', found]
      refine and_iff_left_of_imp fun _ => ?_
      rintro path' info' now' record same returned
      cases same
      cases returned
      exact ⟨bytes, there, file ▸ here⟩

theorem markEach_keeps (query : Digest → BlobCmd ε Nat)
    (keeps : ∀ (s : Blobz ε) hash, store.Kept s → store.Kept (Blobz.exec (query hash) s).2)
    (kept : store.Kept s) (blake3s : List Digest) (outcome : SoftDeleteOutcome) :
    store.Kept ((markEach query blake3s outcome).run s).2 := by
  induction blake3s generalizing s outcome with
  | nil => exact kept
  | cons hash rest ih =>
    have kept' := keeps s hash kept
    rw [markEach]
    simp only [Prog.run_bind, Prog.run_issue, Blobz.machine_exec]
    split
    · exact ih kept' _
    · exact ih kept' _

theorem softDelete_keeps (kept : store.Kept s) (blake3s : List Digest) (actor : String)
    (now : Int) : store.Kept ((softDelete blake3s actor now : BlobProg ε _).run s).2 := by
  refine markEach_keeps _ (fun s hash kept => ?_) kept blake3s _
  refine kept.updateRow hash _ _ _ ?_
  exact fun _ => rfl

theorem restore_keeps (kept : store.Kept s) (blake3s : List Digest) :
    store.Kept ((restore blake3s : BlobProg ε _).run s).2 := by
  refine markEach_keeps _ (fun s hash kept => ?_) kept blake3s _
  refine kept.updateRow hash _ _ _ ?_
  exact fun _ => rfl

theorem run_purgeRow (kept : store.Kept s) {record : BlobRecord} (present : record ∈ s.rows) :
    ∃ s', (store.purgeRow record).run s = (.ok (), s') ∧ store.Kept s' ∧
      s'.rows = s.rows.deleteWhere fun row => row.blake3 = record.blake3 := by
  have apart (row : BlobRecord) (stays : row ∈ s.rows.deleteWhere fun row =>
      row.blake3 = record.blake3) : row ∈ s.rows ∧ store.fileOf row ≠ store.fileOf record := by
    obtain ⟨known, differs⟩ := (Table.mem_deleteWhere _ _ _).mp stays
    refine ⟨known, fun same => ?_⟩
    rw [kept.eq_of_file known present same] at differs
    simp at differs
  cases external : record.external with
  | true =>
    refine ⟨⟨s.rows.deleteWhere fun row => row.blake3 = record.blake3, s.drive⟩, ?_, ?_, rfl⟩
    · simp [purgeRow, external, Blobz.exec]
    · exact fun row stays => kept row (apart row stays).1
  | false =>
    refine ⟨⟨s.rows.deleteWhere fun row => row.blake3 = record.blake3,
      s.drive.remove (store.fileOf record)⟩, ?_, ?_, rfl⟩
    · simp [purgeRow, external, Blobz.exec]
    · exact fun row stays =>
        (backed_remove _ _ _).mpr ⟨(apart row stays).2, kept row (apart row stays).1⟩

theorem purgeEach_keeps (kept : store.Kept s) (hashes : List Digest)
    (outcome : SoftDeleteOutcome) :
    store.Kept ((store.purgeEach hashes outcome).run s).2 := by
  induction hashes generalizing s outcome with
  | nil => exact kept
  | cons hash rest ih =>
    rw [purgeEach]
    simp only [Prog.run_bind, Prog.run_issue, Blobz.machine_exec, Blobz.exec]
    cases selected : (s.rows.get hash).filter BlobRecord.softDeleted with
    | none => exact ih kept _
    | some record =>
      have found := (Option.filter_eq_some_iff.mp selected).1
      obtain ⟨s', ran, kept', -⟩ := run_purgeRow kept ((Table.get_eq_some _ _ _).mp found).1
      simp only [Prog.run_bind, ran]
      exact ih kept' _

theorem purgeRows_keeps (kept : store.Kept s) (records : List BlobRecord)
    (present : ∀ record ∈ records, record ∈ s.rows)
    (distinct : (records.map BlobRecord.blake3).Nodup) (deleted : Nat) :
    store.Kept ((store.purgeRows records deleted).run s).2 := by
  induction records generalizing s deleted with
  | nil => exact kept
  | cons record rest ih =>
    obtain ⟨s', ran, kept', left⟩ := run_purgeRow kept (present record List.mem_cons_self)
    obtain ⟨new, distinct⟩ := List.nodup_cons.mp distinct
    rw [purgeRows]
    simp only [Prog.run_bind, ran]
    refine ih kept' (fun row later => ?_) distinct _
    rw [left, Table.mem_deleteWhere]
    refine ⟨present row (List.mem_cons_of_mem _ later), ?_⟩
    have differs : row.blake3 ≠ record.blake3 := fun same =>
      new (List.mem_map.mpr ⟨row, later, same⟩)
    simpa using differs

theorem hardDeleteSoftDeleted_keeps (kept : store.Kept s) (blake3s : Option (List Digest)) :
    store.Kept ((store.hardDeleteSoftDeleted blake3s).run s).2 := by
  cases blake3s with
  | some hashes => exact purgeEach_keeps kept hashes _
  | none =>
    refine purgeRows_keeps kept (s.rows.select BlobRecord.softDeleted) ?_ ?_ 0
    · exact fun record selected => ((Table.mem_select _ _ _).mp selected).1
    · exact s.rows.unique.sublist (List.filter_sublist.map _)

end SqliteBlobStore

namespace BlobOp

variable {π ε : Type} [DecidableEq ε] {store : SqliteBlobStore π ε} {s : Blobz ε}

/-- Where every row has its file, an operation leaves it so exactly if it is clear of the rows'
files. -/
theorem keepsFiles_iff (kept : store.Kept s) (op : BlobOp π) :
    op.KeepsFiles store s ↔ Clear store s op := by
  cases op with
  | adoptLocalFile path info now =>
    exact SqliteBlobStore.adoptLocalFile_keeps_iff kept path info now
  | insert bytes info now =>
    rw [← SqliteBlobStore.insert_keeps_iff kept]
    simp only [KeepsFiles, prog, Prog.pure_def, Prog.run_bind_ret]
    simp
  | registerExternalPath absPath info cancelled now =>
    rw [← SqliteBlobStore.registerExternalPath_keeps_iff kept]
    simp only [KeepsFiles, prog, Prog.pure_def, Prog.run_bind_ret]
    simp
  | registerIngested blake3 info now =>
    rw [← SqliteBlobStore.registerIngested_keeps_iff kept]
    simp only [KeepsFiles, prog, Prog.pure_def, Prog.run_bind_ret]
    simp
  | softDelete blake3s actor now =>
    have kept' := SqliteBlobStore.softDelete_keeps kept blake3s actor now
    simp only [KeepsFiles, prog, Prog.pure_def, Prog.run_bind_ret]
    simpa [Clear] using kept'
  | restore blake3s =>
    have kept' := SqliteBlobStore.restore_keeps kept blake3s
    simp only [KeepsFiles, prog, Prog.pure_def, Prog.run_bind_ret]
    simpa [Clear] using kept'
  | hardDeleteSoftDeleted blake3s =>
    have kept' := SqliteBlobStore.hardDeleteSoftDeleted_keeps kept blake3s
    simp only [KeepsFiles, prog, Prog.pure_def, Prog.run_bind_ret]
    simpa [Clear] using kept'

def withDuplicate : Blobz (List Char) :=
  let stored := ((plainStore.insert [7] {} 0).run .empty).2
  { stored with drive := stored.drive.write ['/', 'i', 'n'] [7] }

theorem adopts_duplicate :
    (adoptLocalFile ['/', 'i', 'n'] {} 1).KeepsFiles plainStore withDuplicate := by
  refine (keepsFiles_iff (by decide) _).mpr ?_
  intro bytes there
  have same : withDuplicate.drive.read ['/', 'i', 'n'] = some [7] := by decide
  cases Option.some.inj (there.symm.trans same)
  cases found : withDuplicate.rows.get (plainStore.hash [7]) with
  | none => exact absurd found (by decide)
  | some existing =>
    have clear : ∀ row ∈ withDuplicate.rows.rows, plainStore.fileOf row ≠ ['/', 'i', 'n'] := by
      decide
    exact clear

/-- Adopting the file of a row removes it as its own duplicate. -/
theorem adoption_removes_own_file : ¬∀ (s : Blobz (List Char)) (op : BlobOp (List Char)),
    plainStore.Kept s → op.KeepsFiles plainStore s := by
  intro claimed
  let own := plainStore.canonical (plainStore.hash [7])
  have keeps := claimed withDuplicate (.adoptLocalFile own {} 1) (by decide)
  have lost : ¬plainStore.Kept
      (((adoptLocalFile own {} 1).prog plainStore).run withDuplicate).2 := by
    decide
  exact lost keeps.1

end BlobOp

end Tomb.Reliquary
