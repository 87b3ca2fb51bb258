import Tomb.Reliquary.Calls

/-! Purges of soft-deleted rows against calls that restore or add the same hashes, in any
interleaving of their steps. -/
namespace Tomb.Reliquary
open Tomb.Lib

section Invariant

variable {π ε : Type} (store : SqliteBlobStore π ε)

/-- A managed row has the path of its hash, and the file of an external row is outside of the places
in the blob directory. -/
def Placed (row : BlobRecord) : Prop :=
  (row.external = false → row.path = relPath row.blake3) ∧
    (row.external = true → ∀ blake3, store.fileOf row ≠ store.canonical blake3)

/-- A selected record may be deleted: if its hash has a row, that is soft-deleted. -/
def Doomed (rows : Table BlobRecord.blake3) (record : BlobRecord) : Prop :=
  (record.external = false → record.path = relPath record.blake3) ∧
    ∀ row, rows.get record.blake3 = some row → row.softDeleted = true

namespace Stage

def unlinked (blake3 : Digest) : Stage ε → Prop
  | .removed record _ => record.blake3 = blake3
  | _ => False

def adds (blake3 : Digest) : Stage ε → Prop
  | .adding other _ => other = blake3
  | _ => False

def Sound (s : Blobz ε) : Stage ε → Prop
  | .purging selected => ∀ record ∈ selected, Doomed s.rows record
  | .removed record rest => ∀ other ∈ record :: rest, Doomed s.rows other
  | .hashed blake3 source => (∀ other, store.canonical other ≠ source) →
    ∀ bytes, s.drive.read source = some bytes → store.hash bytes = blake3
  | .ingesting _ => True
  | .adding blake3 _ => ∃ bytes, s.drive.read (store.canonical blake3) = some bytes ∧
    store.hash bytes = blake3

end Stage

/-- The invariant of the calls and the store: a row has its file unless a purge has removed it, what
a purge has selected is still soft-deleted, and what is owed is there. -/
structure Tidy (s : Shared ε) (stages : List (Stage ε)) : Prop where
  placed : ∀ row ∈ s.blobz.rows, Placed store row
  backed : ∀ row ∈ s.blobz.rows, store.Backed s.blobz.drive row ∨
    ∃ stage ∈ stages, stage.unlinked row.blake3
  sound : ∀ stage ∈ stages, stage.Sound store s.blobz
  owed : ∀ blake3 ∈ s.owed, ∃ row, s.blobz.rows.get blake3 = some row ∧ row.softDeleted = false
  wronged : s.wronged = []

variable {store} {s : Shared ε} {own : Stage ε} {others stages : List (Stage ε)}

theorem Tidy.congr (tidy : Tidy store s stages) {stages' : List (Stage ε)}
    (same : ∀ stage, stage ∈ stages' ↔ stage ∈ stages) : Tidy store s stages' where
  placed := tidy.placed
  backed row present := by
    simp only [same]
    exact tidy.backed row present
  sound stage member := tidy.sound stage ((same stage).mp member)
  owed := tidy.owed
  wronged := tidy.wronged

variable {stage : Stage ε}

theorem Stage.Sound.softDeleted {blobz : Blobz ε}
    (sound : stage.Sound store blobz) {blake3 : Digest} (held : blake3 ∈ stage.held)
    {row : BlobRecord} (found : blobz.rows.get blake3 = some row) : row.softDeleted = true := by
  cases stage with
  | purging selected =>
    obtain ⟨record, member, rfl⟩ := List.mem_map.mp held
    exact (sound record member).2 row found
  | removed record rest =>
    have members : blake3 ∈ (record :: rest).map (·.blake3) := held
    obtain ⟨other, member, rfl⟩ := List.mem_map.mp members
    exact (sound other member).2 row found
  | hashed _ _ => cases held
  | ingesting _ => cases held
  | adding _ _ => cases held

theorem Stage.held_of_unlinked {blake3 : Digest}
    (unlinked : stage.unlinked blake3) : blake3 ∈ stage.held := by
  cases stage with
  | removed record rest =>
    obtain rfl : record.blake3 = blake3 := unlinked
    exact List.mem_cons_self
  | purging _ => cases unlinked
  | hashed _ _ => cases unlinked
  | ingesting _ => cases unlinked
  | adding _ _ => cases unlinked

theorem Tidy.honoured (tidy : Tidy store s stages) : s.Honoured store where
  owed blake3 owes := by
    obtain ⟨row, found, live⟩ := tidy.owed blake3 owes
    obtain ⟨present, rfl⟩ := (Table.get_eq_some _ _ _).mp found
    refine ⟨row, found, live, ?_⟩
    rcases tidy.backed row present with backed | ⟨stage, member, unlinked⟩
    · exact backed
    · have doomed := (tidy.sound stage member).softDeleted (Stage.held_of_unlinked unlinked) found
      rw [live] at doomed
      cases doomed
  wronged := tidy.wronged

theorem Stage.Sound.mono {blobz blobz' : Blobz ε} (sound : stage.Sound store blobz)
    (rows : ∀ blake3 ∈ stage.held, (∀ row, blobz.rows.get blake3 = some row →
      row.softDeleted = true) → ∀ row, blobz'.rows.get blake3 = some row → row.softDeleted = true)
    (outside : ∀ entry, (∀ other, store.canonical other ≠ entry) → ∀ bytes,
      blobz'.drive.read entry = some bytes → blobz.drive.read entry = some bytes)
    (waiting : ∀ blake3, stage.adds blake3 → ∀ bytes,
      blobz.drive.read (store.canonical blake3) = some bytes → store.hash bytes = blake3 →
      ∃ bytes', blobz'.drive.read (store.canonical blake3) = some bytes' ∧
        store.hash bytes' = blake3) : stage.Sound store blobz' := by
  cases stage with
  | purging selected =>
    intro record member
    obtain ⟨managed, deleted⟩ := sound record member
    exact ⟨managed, rows record.blake3 (List.mem_map_of_mem member) deleted⟩
  | removed record rest =>
    intro other member
    obtain ⟨managed, deleted⟩ := sound other member
    have held : other.blake3 ∈ (record :: rest).map (·.blake3) := List.mem_map_of_mem member
    exact ⟨managed, rows other.blake3 held deleted⟩
  | hashed blake3 source =>
    intro apart bytes there
    exact sound apart bytes (outside source apart bytes there)
  | ingesting blake3 => trivial
  | adding blake3 source =>
    obtain ⟨bytes, there, hashed⟩ := sound
    exact waiting blake3 rfl bytes there hashed

theorem Tidy.look (tidy : Tidy store s (own :: others)) {own' : Stage ε}
    (sound : own'.Sound store s.blobz) (silent : ∀ blake3, ¬own.unlinked blake3)
    {owed : List Digest} (owes : ∀ blake3 ∈ owed, ∃ row, s.blobz.rows.get blake3 = some row ∧
      row.softDeleted = false) :
    Tidy store { s with owed } (own' :: others) where
  placed := tidy.placed
  backed row present := by
    rcases tidy.backed row present with backed | ⟨stage, member, unlinked⟩
    · exact .inl backed
    · rcases List.mem_cons.mp member with rfl | member
      · exact absurd unlinked (silent _)
      · exact .inr ⟨stage, List.mem_cons_of_mem _ member, unlinked⟩
  sound stage member := by
    rcases List.mem_cons.mp member with rfl | member
    · exact sound
    · exact tidy.sound stage (List.mem_cons_of_mem _ member)
  owed := owes
  wronged := tidy.wronged

theorem Tidy.changeFiles (tidy : Tidy store s (own :: others)) {own' : Stage ε}
    {drive : Drive ε Bytes} (gone : Digest → Prop)
    (sound : own'.Sound store { s.blobz with drive }) (silent : ∀ blake3, ¬own.unlinked blake3)
    (excused : ∀ blake3, gone blake3 → own'.unlinked blake3)
    (waiting : ∀ stage ∈ others, ∀ blake3, stage.adds blake3 → ¬gone blake3)
    (places : ∀ blake3, ¬gone blake3 → ∀ bytes,
      s.blobz.drive.read (store.canonical blake3) = some bytes → store.hash bytes = blake3 →
      ∃ bytes', drive.read (store.canonical blake3) = some bytes' ∧ store.hash bytes' = blake3)
    (outside : ∀ entry, (∀ other, store.canonical other ≠ entry) → ∀ bytes,
      drive.read entry = some bytes → s.blobz.drive.read entry = some bytes)
    (external : ∀ row ∈ s.blobz.rows, (∀ other, store.canonical other ≠ store.fileOf row) →
      drive.read (store.fileOf row) = s.blobz.drive.read (store.fileOf row)) :
    Tidy store { s with blobz := { s.blobz with drive } } (own' :: others) where
  placed := tidy.placed
  backed row present := by
    rcases tidy.backed row present with ⟨bytes, there, hashed⟩ | ⟨stage, member, unlinked⟩
    · cases managed : row.external with
      | true =>
        have apart := (tidy.placed row present).2 managed
        refine .inl ⟨bytes, ?_, hashed⟩
        exact (external row present fun other same => apart other same.symm).trans there
      | false =>
        have file : store.fileOf row = store.canonical row.blake3 :=
          SqliteBlobStore.fileOf_managed managed ((tidy.placed row present).1 managed)
        by_cases lost : gone row.blake3
        · exact .inr ⟨own', List.mem_cons_self, excused _ lost⟩
        · rw [file] at there
          obtain ⟨bytes', there', hashed'⟩ := places row.blake3 lost bytes there hashed
          exact .inl ⟨bytes', file.symm ▸ there', hashed'⟩
    · rcases List.mem_cons.mp member with rfl | member
      · exact absurd unlinked (silent _)
      · exact .inr ⟨stage, List.mem_cons_of_mem _ member, unlinked⟩
  sound stage member := by
    rcases List.mem_cons.mp member with rfl | member
    · exact sound
    · have before := tidy.sound stage (List.mem_cons_of_mem _ member)
      refine before.mono (fun _ _ deleted => deleted) outside ?_
      exact fun blake3 adds => places blake3 (waiting stage member blake3 adds)
  owed := tidy.owed
  wronged := tidy.wronged

theorem Tidy.changeRows (tidy : Tidy store s (own :: others)) {own' : Stage ε}
    {rows : Table BlobRecord.blake3} {owed : List Digest}
    (placed : ∀ row ∈ rows, Placed store row)
    (backed : ∀ row ∈ rows, store.Backed s.blobz.drive row ∨
      ∃ stage ∈ others, stage.unlinked row.blake3)
    (sound : own'.Sound store { s.blobz with rows })
    (selected : ∀ stage ∈ others, ∀ blake3 ∈ stage.held,
      (∀ row, s.blobz.rows.get blake3 = some row → row.softDeleted = true) →
        ∀ row, rows.get blake3 = some row → row.softDeleted = true)
    (owes : ∀ blake3 ∈ owed, ∃ row, rows.get blake3 = some row ∧ row.softDeleted = false) :
    Tidy store { s with blobz := { s.blobz with rows }, owed } (own' :: others) where
  placed := placed
  backed row present := by
    rcases backed row present with backed | ⟨stage, member, unlinked⟩
    · exact .inl backed
    · exact .inr ⟨stage, List.mem_cons_of_mem _ member, unlinked⟩
  sound stage member := by
    rcases List.mem_cons.mp member with rfl | member
    · exact sound
    · have before := tidy.sound stage (List.mem_cons_of_mem _ member)
      exact before.mono (selected stage member) (fun _ _ _ there => there)
        fun _ _ bytes there hashed => ⟨bytes, there, hashed⟩
  owed := owes
  wronged := tidy.wronged

end Invariant

section Steps

variable {π ε : Type} [DecidableEq ε] (store : SqliteBlobStore π ε)

/-- An entry outside of the blob directory's places that is no row's file. -/
def Outside (s : Blobz ε) (entry : ε) : Prop :=
  (∀ row ∈ s.rows, store.fileOf row ≠ entry) ∧ ∀ blake3, store.canonical blake3 ≠ entry

/-- When a call may take its next step, given the stages of the others. -/
def Allowed (caller : BlobOp π) (s : Blobz ε) (own : Stage ε) (others : List (Stage ε))
    {β : Type} : BlobCmd ε β → Prop
  | .getAny blake3 => caller.promises = true →
    ∀ row, s.rows.get blake3 = some row → row.softDeleted = false
  | .insertOrIgnore row => ∀ stage ∈ others, row.blake3 ∉ stage.held
  | .restore blake3 => (∃ row, s.rows.get blake3 = some row ∧ row.softDeleted = true) →
    ∀ stage ∈ others, blake3 ∉ stage.held
  | .metadata entry => ∀ blake3, own = .ingesting blake3 →
    ∀ bytes, s.drive.read entry = some bytes → store.hash bytes = blake3
  | .removeFile entry =>
    match own with
    | .purging (record :: _) => ∀ stage ∈ others, ¬stage.adds record.blake3
    | _ => Outside store s entry
  | .rename entry _ => Outside store s entry
  | .copy entry _ => Outside store s entry
  | _ => True

variable {store} {s : Shared ε} {caller : BlobOp π} {own : Stage ε} {others : List (Stage ε)}

omit [DecidableEq ε] in
theorem Tidy.placed_update (tidy : Tidy store s (own :: others)) (blake3 : Digest)
    (p : BlobRecord → Bool) (f : BlobRecord → BlobRecord)
    (keeps : ∀ row, (f row).blake3 = row.blake3)
    (same : ∀ row, (f row).external = row.external ∧ (f row).path = row.path) :
    ∀ row ∈ (s.blobz.updateRow blake3 p f keeps).2.rows, Placed store row ∧
      (store.Backed s.blobz.drive row ∨ ∃ stage ∈ own :: others, stage.unlinked row.blake3) := by
  intro row present
  obtain ⟨old, known, rfl⟩ := (Table.mem_update _ _ _ keeps _).mp present
  have placed := tidy.placed old known
  have backed := tidy.backed old known
  have file : store.fileOf (f old) = store.fileOf old := by
    unfold SqliteBlobStore.fileOf SqliteBlobStore.pathFor
    rw [(same old).1, (same old).2]
  split
  · unfold Placed SqliteBlobStore.Backed
    rw [file, keeps old, (same old).1, (same old).2]
    exact ⟨placed, backed⟩
  · exact ⟨placed, backed⟩

omit [DecidableEq ε] in
theorem Tidy.update (tidy : Tidy store s (.purging [] :: others)) (blake3 : Digest)
    (p : BlobRecord → Bool) (f : BlobRecord → BlobRecord)
    (keeps : ∀ row, (f row).blake3 = row.blake3)
    (same : ∀ row, (f row).external = row.external ∧ (f row).path = row.path)
    (selected : ∀ stage ∈ others, blake3 ∈ stage.held → ∀ row,
      s.blobz.rows.get blake3 = some row → row.softDeleted = true → p row = true →
        (f row).softDeleted = true)
    {owed : List Digest} (owes : ∀ other ∈ owed,
      ∃ row, (s.blobz.updateRow blake3 p f keeps).2.rows.get other = some row ∧
        row.softDeleted = false) :
    Tidy store { s with blobz := (s.blobz.updateRow blake3 p f keeps).2, owed }
      (.purging [] :: others) := by
  have rows := tidy.placed_update blake3 p f keeps same
  refine tidy.changeRows (fun row present => (rows row present).1) ?_ ?_ ?_ owes
  · intro row present
    rcases (rows row present).2 with backed | ⟨stage, member, unlinked⟩
    · exact .inl backed
    · rcases List.mem_cons.mp member with rfl | member
      · cases unlinked
      · exact .inr ⟨stage, member, unlinked⟩
  · exact fun record member => nomatch member
  · intro stage member other held deleted row found
    rw [Table.get_update] at found
    obtain ⟨old, known, rfl⟩ := Option.map_eq_some_iff.mp found
    split
    · rename_i chosen
      simp only [Bool.and_eq_true, decide_eq_true_eq] at chosen
      have named := ((Table.get_eq_some _ _ _).mp known).2
      obtain rfl : other = blake3 := named.symm.trans chosen.1
      exact selected stage member held old known (deleted old known) chosen.2
    · exact deleted old known

omit [DecidableEq ε] in
theorem get_updateRow (blobz : Blobz ε) (blake3 : Digest) (p : BlobRecord → Bool)
    (f : BlobRecord → BlobRecord) (keeps : ∀ row, (f row).blake3 = row.blake3) (other : Digest) :
    (blobz.updateRow blake3 p f keeps).2.rows.get other = (blobz.rows.get other).map fun row =>
      if row.blake3 = blake3 && p row then f row else row :=
  Table.get_update _ _ _ keeps _

omit [DecidableEq ε] in
theorem get_updateRow_of_ne (blobz : Blobz ε) {blake3 other : Digest} (p : BlobRecord → Bool)
    (f : BlobRecord → BlobRecord) (keeps : ∀ row, (f row).blake3 = row.blake3)
    (differs : other ≠ blake3) :
    (blobz.updateRow blake3 p f keeps).2.rows.get other = blobz.rows.get other := by
  rw [get_updateRow]
  cases found : blobz.rows.get other with
  | none => rfl
  | some row =>
    have named := ((Table.get_eq_some _ _ _).mp found).2
    simp [named, differs]

theorem Tidy.updateSize (tidy : Tidy store s (.purging [] :: others)) (blake3 : Digest)
    (size : Nat) :
    Tidy store (Shared.exec store (.issued caller (.updateSize blake3 size)) s).2
      (.purging [] :: others) := by
  refine tidy.update blake3 (fun _ => true) (fun row => { row with size }) (fun _ => rfl)
    (fun _ => ⟨rfl, rfl⟩) ?_ ?_
  · exact fun _ _ _ _ _ deleted _ => deleted
  · intro other owes
    obtain ⟨row, found, live⟩ := tidy.owed other owes
    refine ⟨_, (get_updateRow _ _ _ _ _ _).trans (congrArg (Option.map _) found), ?_⟩
    dsimp only
    split
    · exact live
    · exact live

theorem Tidy.softDelete (tidy : Tidy store s (.purging [] :: others)) (blake3 : Digest)
    (now : Int) (actor : String) :
    Tidy store (Shared.exec store (.issued caller (.softDelete blake3 now actor)) s).2
      (.purging [] :: others) := by
  refine tidy.update blake3 (fun row => !row.softDeleted)
    (fun row => { row with softDeletedAt := some now, softDeletedBy := some actor })
    (fun _ => rfl) (fun _ => ⟨rfl, rfl⟩) ?_ ?_
  · exact fun _ _ _ _ _ _ _ => rfl
  · intro other owes
    obtain ⟨owes, differs⟩ := List.mem_filter.mp owes
    obtain ⟨row, found, live⟩ := tidy.owed other owes
    exact ⟨row, (get_updateRow_of_ne _ _ _ _ (of_decide_eq_true differs)).trans found, live⟩

theorem Tidy.restore (tidy : Tidy store s (.purging [] :: others)) (blake3 : Digest)
    (allowed : Allowed store caller s.blobz (.purging []) others (.restore blake3)) :
    Tidy store (Shared.exec store (.issued caller (.restore blake3)) s).2
      (.purging [] :: others) := by
  refine tidy.update blake3 BlobRecord.softDeleted
    (fun row => { row with softDeletedAt := none, softDeletedBy := none })
    (fun _ => rfl) (fun _ => ⟨rfl, rfl⟩) ?_ ?_
  · intro stage member held row found deleted _
    exact absurd held (allowed ⟨row, found, deleted⟩ stage member)
  · intro other owes
    have restored (row : BlobRecord) (found : s.blobz.rows.get other = some row)
        (fits : other = blake3 ∨ row.softDeleted = false) :
        ∃ row, ((s.blobz.updateRow blake3 BlobRecord.softDeleted (fun row =>
          { row with softDeletedAt := none, softDeletedBy := none }) fun _ => rfl).2).rows.get
            other = some row ∧ row.softDeleted = false := by
      refine ⟨_, (get_updateRow _ _ _ _ _ _).trans (congrArg (Option.map _) found), ?_⟩
      have named := ((Table.get_eq_some _ _ _).mp found).2
      dsimp only
      split
      · rfl
      · rename_i spared
        rcases fits with rfl | live
        · simpa [named] using spared
        · exact live
    have owes : other ∈ if (Blobz.exec (.restore blake3) s.blobz).1 = 0 then s.owed
      else blake3 :: s.owed := owes
    split at owes
    · obtain ⟨row, found, live⟩ := tidy.owed other owes
      exact restored row found (.inr live)
    · rename_i affected
      rcases List.mem_cons.mp owes with rfl | owes
      · cases found : s.blobz.rows.get other with
        | none => simp [Blobz.exec, Blobz.updateRow, found] at affected
        | some row => exact restored row found (.inl rfl)
      · obtain ⟨row, found, live⟩ := tidy.owed other owes
        exact restored row found (.inr live)

theorem Tidy.getAny (tidy : Tidy store s (own :: others)) (blake3 : Digest)
    (legal : own.legal store (.getAny blake3 : BlobCmd ε _))
    (allowed : Allowed store caller s.blobz own others (.getAny blake3)) :
    Tidy store (Shared.exec store (.issued caller (.getAny blake3)) s).2
      (own.next store caller (.getAny blake3) (s.blobz.rows.get blake3) :: others) := by
  have sound := tidy.sound own List.mem_cons_self
  refine tidy.look ?_ ?_ ?_
  · rcases legal with rfl | ⟨_, _, rfl⟩
    · cases s.blobz.rows.get blake3 with
      | some row => exact sound
      | none =>
        simp only [Stage.next]
        split
        · trivial
        · exact sound
    · exact sound
  · rcases legal with rfl | ⟨_, _, rfl⟩ <;> exact fun _ unlinked => unlinked
  · intro other owes
    have owes : other ∈ if (caller.promises && (s.blobz.rows.get blake3).isSome) = true then
      blake3 :: s.owed else s.owed := owes
    split at owes
    · rename_i promised
      obtain ⟨promises, there⟩ := Bool.and_eq_true_iff.mp promised
      rcases List.mem_cons.mp owes with rfl | owes
      · obtain ⟨row, found⟩ := Option.isSome_iff_exists.mp there
        exact ⟨row, found, allowed promises row found⟩
      · exact tidy.owed other owes
    · exact tidy.owed other owes

theorem Tidy.insertOrIgnore (tidy : Tidy store s (own :: others)) (row : BlobRecord)
    (legal : own.legal store (.insertOrIgnore row : BlobCmd ε _))
    (allowed : Allowed store caller s.blobz own others (.insertOrIgnore row)) :
    Tidy store (Shared.exec store (.issued caller (.insertOrIgnore row)) s).2
      (.purging [] :: others) := by
  obtain ⟨source, rfl, external, path, live⟩ := legal
  have sound : Stage.Sound store s.blobz (.purging []) := fun record member => nomatch member
  cases added : s.blobz.rows.insert row with
  | none =>
    simp only [Shared.exec, Blobz.exec, added, Option.getD_none]
    exact tidy.look sound (fun _ unlinked => unlinked) tidy.owed
  | some rows =>
    obtain ⟨bytes, there, hashed⟩ := tidy.sound _ List.mem_cons_self
    have file : store.fileOf row = store.canonical row.blake3 :=
      SqliteBlobStore.fileOf_managed external path
    have get := Table.get_insert _ _ _ added
    simp only [Shared.exec, Blobz.exec, added, Option.getD_some]
    refine tidy.changeRows ?_ ?_ ?_ ?_ ?_
    · intro old present
      rcases (Table.insert_eq_some _ _ _ added _).mp present with known | rfl
      · exact tidy.placed old known
      · exact ⟨fun _ => path, fun outside => by rw [external] at outside; cases outside⟩
    · intro old present
      rcases (Table.insert_eq_some _ _ _ added _).mp present with known | rfl
      · rcases tidy.backed old known with backed | ⟨stage, member, unlinked⟩
        · exact .inl backed
        · rcases List.mem_cons.mp member with rfl | member
          · cases unlinked
          · exact .inr ⟨stage, member, unlinked⟩
      · exact .inl ⟨bytes, file ▸ there, hashed⟩
    · exact fun record member => nomatch member
    · intro stage member blake3 held deleted old found
      rw [get] at found
      split at found
      · rename_i same
        exact absurd (same ▸ held) (allowed stage member)
      · exact deleted old found
    · intro blake3 owes
      obtain ⟨old, found, alive⟩ := tidy.owed blake3 owes
      rw [get]
      split
      · exact ⟨row, rfl, by simp [BlobRecord.softDeleted, live]⟩
      · exact ⟨old, found, alive⟩

/-- A call puts the content of a hash in its place, and at most takes an outside file for it. -/
theorem Tidy.place (tidy : Tidy store s (own :: others)) (blake3 : Digest)
    {source : Option ε} {drive : Drive ε Bytes} {bytes : Bytes} (hashed : store.hash bytes = blake3)
    (silent : ∀ other, ¬own.unlinked other)
    (there : drive.read (store.canonical blake3) = some bytes)
    (elsewhere : ∀ entry, entry ≠ store.canonical blake3 →
      drive.read entry = s.blobz.drive.read entry ∨
        Outside store s.blobz entry ∧ drive.read entry = none) :
    Tidy store { s with blobz := { s.blobz with drive } } (.adding blake3 source :: others) := by
  refine tidy.changeFiles (fun _ => False) ⟨bytes, there, hashed⟩ silent
    (fun _ gone => gone.elim) (fun _ _ _ _ gone => gone) ?_ ?_ ?_
  · intro other _ old before own
    by_cases same : store.canonical other = store.canonical blake3
    · cases store.apart same
      exact ⟨bytes, there, hashed⟩
    · rcases elsewhere _ same with kept | ⟨outside, _⟩
      · exact ⟨old, kept.trans before, own⟩
      · exact absurd rfl (outside.2 other)
  · intro entry apart old after
    rcases elsewhere entry (apart blake3).symm with kept | ⟨_, lost⟩
    · exact kept.symm.trans after
    · rw [lost] at after
      cases after
  · intro row present apart
    rcases elsewhere _ (apart blake3).symm with kept | ⟨outside, _⟩
    · exact kept
    · exact absurd rfl (outside.1 row present)

theorem Tidy.write (tidy : Tidy store s (own :: others)) (entry : ε) (content : Bytes)
    (legal : own.legal store (.write entry content)) :
    Tidy store (Shared.exec store (.issued caller (.write entry content)) s).2
      (.adding (store.hash content) none :: others) := by
  obtain ⟨rfl, rfl⟩ := legal
  refine tidy.place _ rfl (fun _ unlinked => unlinked) ?_ ?_
  · rw [Drive.read_write, if_pos rfl]
  · intro other differs
    exact .inl (by rw [Drive.read_write, if_neg differs])

omit [DecidableEq ε] in
/-- What a call has hashed outside of the blob directory still has that hash. -/
theorem Tidy.hashed (tidy : Tidy store s (own :: others)) {blake3 : Digest} {entry : ε}
    (stage : own = .hashed blake3 entry) (outside : Outside store s.blobz entry) {bytes : Bytes}
    (there : s.blobz.drive.read entry = some bytes) : store.hash bytes = blake3 := by
  have sound := tidy.sound own List.mem_cons_self
  rw [stage] at sound
  exact sound outside.2 bytes there

theorem Tidy.rename (tidy : Tidy store s (own :: others)) (entry target : ε)
    (legal : own.legal store (.rename entry target))
    (allowed : Allowed store caller s.blobz own others (.rename entry target)) :
    Tidy store (Shared.exec store (.issued caller (.rename entry target)) s).2
      (own.next store caller (.rename entry target)
        (Blobz.exec (.rename entry target) s.blobz).1 :: others) := by
  obtain ⟨blake3, rfl, rfl⟩ := legal
  cases renamed : s.blobz.drive.rename entry (store.canonical blake3) with
  | none =>
    simp only [Shared.exec, Blobz.exec, renamed, Blobz.replaceDrive, Stage.next]
    exact tidy
  | some drive =>
    simp only [Shared.exec, Blobz.exec, renamed, Blobz.replaceDrive, Stage.next]
    obtain ⟨-, file, leads, -⟩ := Drive.rename_eq_some renamed
    have there : s.blobz.drive.read entry = some (s.blobz.drive.files file) := by
      rw [Drive.read, leads, Option.map_some]
    refine tidy.place blake3 (tidy.hashed rfl allowed there) (fun _ unlinked => unlinked) ?_ ?_
    · rw [Drive.read_rename renamed, if_pos rfl, there]
    · intro other differs
      rw [Drive.read_rename renamed, if_neg differs]
      split
      · rename_i same
        exact .inr ⟨same ▸ allowed, rfl⟩
      · exact .inl rfl

theorem Tidy.copy (tidy : Tidy store s (own :: others)) (entry target : ε)
    (legal : own.legal store (.copy entry target))
    (allowed : Allowed store caller s.blobz own others (.copy entry target)) :
    Tidy store (Shared.exec store (.issued caller (.copy entry target)) s).2
      (own.next store caller (.copy entry target)
        (Blobz.exec (.copy entry target) s.blobz).1 :: others) := by
  obtain ⟨blake3, rfl, rfl⟩ := legal
  cases there : s.blobz.drive.read entry with
  | none =>
    simp only [Shared.exec, Blobz.exec, Drive.copy, there, Option.map_none, Blobz.replaceDrive,
      Stage.next]
    exact tidy
  | some bytes =>
    simp only [Shared.exec, Blobz.exec, Drive.copy, there, Option.map_some, Blobz.replaceDrive,
      Stage.next]
    refine tidy.place blake3 (tidy.hashed rfl allowed there) (fun _ unlinked => unlinked) ?_ ?_
    · rw [Drive.read_write, if_pos rfl]
    · intro other differs
      exact .inl (by rw [Drive.read_write, if_neg differs])

theorem Tidy.wronged_removeFile (tidy : Tidy store s (own :: others)) (caller : BlobOp π)
    (entry : ε)
    (doomed : ∀ row ∈ s.blobz.rows, store.fileOf row = entry → row.softDeleted = true) :
    Shared.noteWronged store caller (.removeFile entry) s.blobz s.wronged = [] := by
  have none : (s.blobz.rows.select fun row =>
      store.fileOf row = entry && !row.softDeleted) = [] := by
    refine List.filter_eq_nil_iff.mpr fun row present chosen => ?_
    simp only [Bool.and_eq_true, decide_eq_true_eq, Bool.not_eq_true'] at chosen
    rw [doomed row present chosen.1] at chosen
    cases chosen.2
  simp [Shared.noteWronged, none, tidy.wronged]

theorem Tidy.removeSource (tidy : Tidy store s (own :: others)) {entry : ε} {own' : Stage ε}
    (outside : Outside store s.blobz entry) (silent : ∀ blake3, ¬own.unlinked blake3)
    (sound : own'.Sound store ⟨s.blobz.rows, s.blobz.drive.remove entry⟩) :
    Tidy store (Shared.exec store (.issued caller (.removeFile entry)) s).2
      (own' :: others) := by
  have kept (other : ε) (differs : other ≠ entry) :
      (s.blobz.drive.remove entry).read other = s.blobz.drive.read other := by
    rw [Drive.read_remove, if_neg differs]
  have wronged := tidy.wronged_removeFile caller entry fun row present same =>
    absurd same (outside.1 row present)
  have changed := tidy.changeFiles (fun _ => False) sound silent (fun _ gone => gone.elim)
    (fun _ _ _ _ gone => gone) ?_ ?_ ?_
  · exact ⟨changed.placed, changed.backed, changed.sound, changed.owed, wronged⟩
  · intro blake3 _ bytes there hashed
    exact ⟨bytes, (kept _ (outside.2 blake3)).trans there, hashed⟩
  · intro other _ bytes there
    rw [Drive.read_remove] at there
    split at there
    · cases there
    · exact there
  · exact fun row present _ => kept _ (outside.1 row present)

theorem Tidy.unlink {record : BlobRecord} {rest : List BlobRecord}
    (tidy : Tidy store s (.purging (record :: rest) :: others)) (managed : record.external = false)
    (alone : ∀ stage ∈ others, ¬stage.adds record.blake3) :
    Tidy store (Shared.exec store (.issued caller (.removeFile (store.fileOf record))) s).2
      (.removed record rest :: others) := by
  have doomed := tidy.sound _ List.mem_cons_self
  have file : store.fileOf record = store.canonical record.blake3 :=
    SqliteBlobStore.fileOf_managed managed ((doomed record List.mem_cons_self).1 managed)
  have wronged := tidy.wronged_removeFile caller (store.fileOf record) (by
    intro row present same
    cases outside : row.external with
    | true =>
      exact absurd (same.trans file) ((tidy.placed row present).2 outside record.blake3)
    | false =>
      rw [file, SqliteBlobStore.fileOf_managed outside ((tidy.placed row present).1 outside)]
        at same
      exact (doomed record List.mem_cons_self).2 row
        ((Table.get_eq_some _ _ _).mpr ⟨present, store.apart same⟩))
  rw [file] at wronged ⊢
  have sound : Stage.Sound store
      ⟨s.blobz.rows, s.blobz.drive.remove (store.canonical record.blake3)⟩
      (.removed record rest) := doomed
  have changed := tidy.changeFiles (fun blake3 => record.blake3 = blake3) sound
    (fun _ unlinked => unlinked) (fun _ same => same) ?_ ?_ ?_ ?_
  · exact ⟨changed.placed, changed.backed, changed.sound, changed.owed, wronged⟩
  · rintro stage member blake3 adds rfl
    exact alone stage member adds
  · intro blake3 spared bytes there hashed
    have differs : store.canonical blake3 ≠ store.canonical record.blake3 :=
      fun same => spared (store.apart same).symm
    exact ⟨bytes, by rw [Drive.read_remove, if_neg differs, there], hashed⟩
  · intro entry apart bytes there
    rw [Drive.read_remove, if_neg (apart record.blake3).symm] at there
    exact there
  · intro row _ apart
    rw [Drive.read_remove, if_neg (apart record.blake3).symm]

theorem Tidy.removeFile (tidy : Tidy store s (own :: others)) (entry : ε)
    (legal : own.legal store (.removeFile entry))
    (allowed : Allowed store caller s.blobz own others (.removeFile entry)) :
    Tidy store (Shared.exec store (.issued caller (.removeFile entry)) s).2
      (own.next store caller (.removeFile entry)
        (Blobz.exec (.removeFile entry) s.blobz).1 :: others) := by
  have sound := tidy.sound own List.mem_cons_self
  rcases legal with ⟨blake3, rfl⟩ | ⟨blake3, rfl⟩ | ⟨record, rest, rfl, managed, rfl⟩
  · refine tidy.removeSource allowed (fun _ unlinked => unlinked) fun _ bytes there => ?_
    rw [Drive.read_remove, if_pos rfl] at there
    cases there
  · obtain ⟨bytes, there, hashed⟩ := sound
    refine tidy.removeSource allowed (fun _ unlinked => unlinked) ⟨bytes, ?_, hashed⟩
    rw [Drive.read_remove, if_neg (allowed.2 blake3), there]
  · exact tidy.unlink managed allowed

theorem Tidy.deleteRow (tidy : Tidy store s (own :: others)) (blake3 : Digest)
    (legal : own.legal store (.deleteRow blake3 : BlobCmd ε _)) :
    Tidy store (Shared.exec store (.issued caller (.deleteRow blake3)) s).2
      (own.next store caller (.deleteRow blake3) () :: others) := by
  have sound := tidy.sound own List.mem_cons_self
  obtain ⟨record, rest, doomed, next, unlinks, rfl⟩ : ∃ record rest,
      (∀ other ∈ record :: rest, Doomed s.blobz.rows other) ∧
      own.next store caller (.deleteRow blake3) () = .purging rest ∧
      (∀ other, own.unlinked other → record.blake3 = other) ∧ record.blake3 = blake3 := by
    rcases legal with ⟨record, rest, rfl, same⟩ | ⟨record, rest, rfl, same⟩
    · exact ⟨record, rest, sound, rfl, fun _ unlinked => unlinked, same⟩
    · exact ⟨record, rest, sound, rfl, fun _ unlinked => unlinked.elim, same⟩
  have gone : (s.blobz.rows.deleteWhere fun row => row.blake3 = record.blake3).get
      record.blake3 = none :=
    Table.get_deleteWhere_of_all _ _ _ fun row same => by simpa using same
  have kept (other : Digest) (differs : other ≠ record.blake3) :
      (s.blobz.rows.deleteWhere fun row => row.blake3 = record.blake3).get other =
        s.blobz.rows.get other :=
    Table.get_deleteWhere_of_none _ _ _ fun row same => by simp [same, differs]
  have shrinks (other : Digest) (row : BlobRecord)
      (found : (s.blobz.rows.deleteWhere fun row => row.blake3 = record.blake3).get other =
        some row) : s.blobz.rows.get other = some row := by
    by_cases same : other = record.blake3
    · rw [same, gone] at found
      cases found
    · exact (kept other same).symm.trans found
  have wronged : Shared.noteWronged store caller (.deleteRow record.blake3) s.blobz s.wronged =
      [] := by
    have none : (s.blobz.rows.select fun row =>
        row.blake3 = record.blake3 && !row.softDeleted) = [] := by
      refine List.filter_eq_nil_iff.mpr fun row present chosen => ?_
      simp only [Bool.and_eq_true, decide_eq_true_eq, Bool.not_eq_true'] at chosen
      have deleted := (doomed record List.mem_cons_self).2 row
        ((Table.get_eq_some _ _ _).mpr ⟨present, chosen.1⟩)
      rw [deleted] at chosen
      cases chosen.2
    simp [Shared.noteWronged, none, tidy.wronged]
  rw [next]
  have changed : Tidy store { s with
      blobz := { s.blobz with rows := s.blobz.rows.deleteWhere fun row =>
        row.blake3 = record.blake3 } } (.purging rest :: others) := by
    refine tidy.changeRows ?_ ?_ ?_ ?_ ?_
    · exact fun row present => tidy.placed row ((Table.mem_deleteWhere _ _ _).mp present).1
    · intro row present
      obtain ⟨known, differs⟩ := (Table.mem_deleteWhere _ _ _).mp present
      rcases tidy.backed row known with backed | ⟨stage, member, unlinked⟩
      · exact .inl backed
      · rcases List.mem_cons.mp member with rfl | member
        · exact absurd (unlinks _ unlinked).symm (of_decide_eq_false differs)
        · exact .inr ⟨stage, member, unlinked⟩
    · intro other member
      obtain ⟨managed, deleted⟩ := doomed other (List.mem_cons_of_mem _ member)
      exact ⟨managed, fun row found => deleted row (shrinks _ row found)⟩
    · exact fun _ _ other _ deleted row found => deleted row (shrinks other row found)
    · intro other owes
      obtain ⟨row, found, live⟩ := tidy.owed other owes
      refine ⟨row, (kept other fun same => ?_).trans found, live⟩
      have deleted := (doomed record List.mem_cons_self).2 row (same ▸ found)
      rw [live] at deleted
      cases deleted
  exact ⟨changed.placed, changed.backed, changed.sound, changed.owed, wronged⟩

theorem Tidy.step (tidy : Tidy store s (own :: others)) {β : Type} {command : BlobCmd ε β}
    (legal : own.legal store command) (allowed : Allowed store caller s.blobz own others command) :
    Tidy store (Shared.exec store (.issued caller command) s).2
      (own.next store caller command (Blobz.exec command s.blobz).1 :: others) := by
  have sound := tidy.sound own List.mem_cons_self
  have present {blake3 : Digest} {row : BlobRecord}
      (found : s.blobz.rows.get blake3 = some row) : row ∈ s.blobz.rows :=
    ((Table.get_eq_some _ _ _).mp found).1
  cases command with
  | getAny blake3 => exact tidy.getAny blake3 legal allowed
  | insertOrIgnore row => exact tidy.insertOrIgnore row legal allowed
  | updateSize blake3 size =>
    obtain rfl : own = .purging [] := legal
    exact tidy.updateSize blake3 size
  | updatePath blake3 path => exact legal.elim
  | softDelete blake3 now actor =>
    obtain rfl : own = .purging [] := legal
    exact tidy.softDelete blake3 now actor
  | restore blake3 =>
    obtain rfl : own = .purging [] := legal
    exact tidy.restore blake3 allowed
  | selectSoftDeleted blake3 =>
    obtain rfl : own = .purging [] := legal
    refine tidy.look ?_ (fun _ unlinked => unlinked) tidy.owed
    intro record member
    obtain ⟨found, deleted⟩ := Option.filter_eq_some_iff.mp (Option.mem_toList.mp member)
    obtain ⟨known, rfl⟩ := (Table.get_eq_some _ _ _).mp found
    refine ⟨(tidy.placed record known).1, fun row found' => ?_⟩
    rw [found] at found'
    cases found'
    exact deleted
  | selectAllSoftDeleted =>
    obtain rfl : own = .purging [] := legal
    refine tidy.look ?_ (fun _ unlinked => unlinked) tidy.owed
    intro record member
    obtain ⟨known, deleted⟩ := (Table.mem_select _ _ _).mp member
    refine ⟨(tidy.placed record known).1, fun row found => ?_⟩
    obtain ⟨known', same⟩ := (Table.get_eq_some _ _ _).mp found
    cases s.blobz.rows.eq_of_key_eq known' known same
    exact deleted
  | deleteRow blake3 => exact tidy.deleteRow blake3 legal
  | read entry =>
    obtain rfl : own = .purging [] := legal
    refine tidy.look ?_ (fun _ unlinked => unlinked) tidy.owed
    simp only [Blobz.exec, Stage.next]
    cases there : s.blobz.drive.read entry with
    | none => exact sound
    | some bytes =>
      intro _ other there'
      rw [there] at there'
      cases there'
      rfl
  | metadata entry =>
    refine tidy.look ?_ ?_ tidy.owed
    · rcases legal with rfl | ⟨blake3, rfl, rfl⟩
      · exact sound
      · simp only [Blobz.exec, Stage.next]
        cases there : s.blobz.drive.read (store.canonical blake3) with
        | none => trivial
        | some bytes => exact ⟨bytes, there, allowed blake3 rfl bytes there⟩
    · rcases legal with rfl | ⟨_, rfl, _⟩ <;> exact fun _ unlinked => unlinked
  | write entry content => exact tidy.write entry content legal
  | removeFile entry => exact tidy.removeFile entry legal allowed
  | rename entry target => exact tidy.rename entry target legal allowed
  | copy entry target => exact tidy.copy entry target legal allowed

end Steps

section Runs

variable {π ε : Type} [DecidableEq ε] (store : SqliteBlobStore π ε)

abbrev CallThread := Thread (CallCmd store) BlobStoreError BlobAnswer

def startCalls (blobz : Blobz ε) (ops : List (BlobOp π)) :
    Pool (CallCmd store) (Shared ε) BlobStoreError BlobAnswer :=
  Pool.start ⟨blobz, [], []⟩ (ops.map (BlobOp.call store))

def takeTurns : Guard (CallCmd store) (Shared ε) BlobStoreError BlobAnswer :=
  fun s before thread after =>
    match thread.prog with
    | .call (.issued caller command) _ =>
      Allowed store caller s.blobz ((sharing store).stage thread.past)
        ((before ++ after).map fun other => (sharing store).stage other.past) command
    | _ => True

variable {store}

/-- Over every run of concurrent calls that take turns, from a store whose rows have their files:
what was promised since its last soft delete is there with its file, and no purge has taken what
was not soft-deleted. -/
theorem promises_honoured (blobz : Blobz ε) (placed : ∀ row ∈ blobz.rows, Placed store row)
    (kept : store.Kept blobz) (ops : List (BlobOp π)) (shares : ∀ op ∈ ops, op.shares = true)
    (pool : Pool (CallCmd store) (Shared ε) BlobStoreError BlobAnswer)
    (run : Pool.Run (fun _ _ => False) (takeTurns store) (startCalls store blobz ops) pool) :
    pool.state.Honoured store := by
  have obeys : ∀ thread ∈ (startCalls store blobz ops).threads, thread.Obeys (sharing store) := by
    simp only [startCalls, Pool.start, List.map_map, List.forall_mem_map]
    exact fun op member => op.call_obeys (shares op member)
  have first : Tidy store ⟨blobz, [], []⟩
      ((startCalls store blobz ops).threads.map (Thread.view (sharing store)) |>.map Prod.fst) := by
    refine ⟨placed, fun row present => .inl (kept row present), ?_, by simp, rfl⟩
    simp only [startCalls, Pool.start, List.map_map, List.forall_mem_map]
    exact fun op _ record member => by cases member
  have holds := (Pool.Run.keeps (sharing store)
    (fun state views => Tidy store state (views.map Prod.fst)) (fun change => change.elim) ?_ obeys
    first run).2
  · exact holds.honoured
  · intro s before after thread β command next status called allowed legal _ tidy
    obtain ⟨prog, past⟩ := thread
    obtain ⟨caller, command⟩ := command
    obtain rfl : prog = .call (.issued caller command) next := called
    have moved := (tidy.congr fun stage => (mem_stages _ _ _ _ _ _).symm).step legal allowed
    exact moved.congr fun stage => mem_stages _ _ _ _ _ _

end Runs

def softDeletedOne : Blobz (List Char) :=
  let stored := ((plainStore.insert [7] {} 0).run .empty).2
  ((BlobOp.softDelete [plainStore.hash [7]] "admin" 1).prog plainStore |>.run stored).2

theorem softDeletedOne_placed : ∀ row ∈ softDeletedOne.rows, Placed plainStore row := by
  have managed : ∀ row ∈ softDeletedOne.rows.rows, row.external = false ∧
      row.path = relPath row.blake3 := by
    decide
  intro row present
  obtain ⟨inside, path⟩ := managed row present
  exact ⟨fun _ => path, fun outside => by rw [inside] at outside; cases outside⟩

def purgeAndRestore : Pool (CallCmd plainStore) (Shared (List Char)) BlobStoreError BlobAnswer :=
  startCalls plainStore softDeletedOne
    [.hardDeleteSoftDeleted none, .restore [plainStore.hash [7]]]

/-- With the restore first, the restored row stays. -/
theorem restored_before_purge :
    plainStore.hash [7] ∈ (purgeAndRestore.schedule [1, 0]).state.owed ∧
      (purgeAndRestore.schedule [1, 0]).state.Honoured plainStore := by
  refine ⟨by decide, promises_honoured softDeletedOne softDeletedOne_placed (by decide) _ ?_ _
    (Pool.run_of_admitted ⟨?_, ?_, trivial⟩)⟩
  · decide
  · intro _ stage member held
    have idle : stage = .purging [] := by
      simpa [Protocol.stage, sharing, Thread.start] using member
    rw [idle] at held
    cases held
  · trivial

/-- With the restore after the purge has selected the row, the restored row is deleted. -/
theorem restored_row_is_purged : ¬∀ (blobz : Blobz (List Char)) (ops : List (BlobOp (List Char)))
    (pool : Pool (CallCmd plainStore) (Shared (List Char)) BlobStoreError BlobAnswer),
    (∀ row ∈ blobz.rows, Placed plainStore row) → plainStore.Kept blobz →
    (∀ op ∈ ops, op.shares = true) →
    Pool.Run (fun _ _ => False) Guard.any (startCalls plainStore blobz ops) pool →
    (∀ thread ∈ pool.threads, thread.status ≠ .running) → pool.state.Honoured plainStore := by
  intro claimed
  have honoured := claimed softDeletedOne _ (purgeAndRestore.schedule [0, 1, 0, 0])
    softDeletedOne_placed (by decide) (by decide) (Pool.run_schedule _ _) (by decide)
  obtain ⟨row, found, -⟩ := honoured.owed (plainStore.hash [7]) (by decide)
  have purged : (purgeAndRestore.schedule [0, 1, 0, 0]).state.blobz.rows.get
      (plainStore.hash [7]) = none := by
    decide
  rw [purged] at found
  cases found

end Tomb.Reliquary
