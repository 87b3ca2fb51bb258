import Tomb.Reliquary.GcProtection

/-! What a snatch leaves: whether a blob that was fetched counts as present, so that the next scan
leaves it alone. -/
namespace Tomb.Reliquary
open Tomb.Lib

namespace Blobz

variable {ε : Type} [DecidableEq ε]

omit [DecidableEq ε] in
@[grind =]
def fileSize (s : Blobz ε) (entry : ε) : Option Nat := (s.drive.read entry).map List.length

/-- The rows stay, and of the files at most the one at a place is new. -/
structure Filled (s t : Blobz ε) (place : ε) (size : Nat) : Prop where
  rows : t.rows = s.rows
  there : t.fileSize place = some ((s.fileSize place).getD size)
  elsewhere : ∀ entry, entry ≠ place → t.fileSize entry = s.fileSize entry

omit [DecidableEq ε] in
theorem filled_of_there {s : Blobz ε} {place : ε} {bytes : Nat}
    (there : s.fileSize place = some bytes) (size : Nat) : s.Filled s place size where
  rows := rfl
  there := by
    rw [there]
    rfl
  elsewhere _ _ := rfl

theorem filled_write {s : Blobz ε} {place : ε} (absent : s.drive.read place = none)
    (content : Bytes) :
    s.Filled { s with drive := s.drive.write place content } place content.length where
  rows := rfl
  there := by simp [fileSize, absent]
  elsewhere entry apart := by simp [fileSize, apart]

end Blobz

/-- What an ingestion makes of a row that is there: only a managed one gets the size of its file. -/
@[grind =] def BlobRecord.ingested (row : BlobRecord) (size : Nat) : BlobRecord :=
  if row.external then row else { row with size }

namespace SqliteBlobStore

variable {π ε : Type} [DecidableEq ε] {store : SqliteBlobStore π ε} {s : Blobz ε} {size : Nat}

omit [DecidableEq ε] in
theorem fileOf_ingested (row : BlobRecord) :
    store.fileOf (row.ingested size) = store.fileOf row := by
  unfold BlobRecord.ingested
  split
  · rfl
  · rfl

omit [DecidableEq ε] in
theorem softDeleted_ingested (row : BlobRecord) :
    (row.ingested size).softDeleted = row.softDeleted := by
  unfold BlobRecord.ingested
  split
  · rfl
  · rfl

theorem registerIngested_existing {existing : BlobRecord}
    (found : s.rows.get existing.blake3 = some existing)
    (there : s.fileSize (store.canonical existing.blake3) = some size) (filled : 0 < size)
    (info : NewBlobMeta) (now : Int) :
    ((store.registerIngested existing.blake3 info now).run s).2.drive = s.drive ∧
      ((store.registerIngested existing.blake3 info now).run s).2.rows.get existing.blake3 =
        some (existing.ingested size) := by
  unfold registerIngested repairSize
  simp only [Prog.run_bind, Prog.run_issue, Blobz.machine_exec, Blobz.exec, found]
  by_cases external : existing.external = true
  · simp [BlobRecord.ingested, external, found]
  · have read : (s.drive.read (store.canonical existing.blake3)).map List.length = some size :=
      there
    simp only [external, Bool.false_eq_true, if_false, Prog.run_bind, Prog.run_issue,
      Blobz.machine_exec, Blobz.exec, read]
    by_cases same : size = existing.size
    · have kept : existing.ingested size = existing := by
        rw [BlobRecord.ingested, if_neg external, same]
      rw [if_neg fun differs => differs.2 same, kept]
      exact ⟨rfl, found⟩
    · rw [if_pos ⟨filled, same⟩]
      have repaired : (s.updateRow existing.blake3 (fun _ => true)
          (fun row => { row with size }) fun _ => rfl).2.rows.get existing.blake3 =
            some (existing.ingested size) := by
        rw [Blobz.updateRow, Table.get_update, found]
        simp [BlobRecord.ingested, external]
      simp only [Prog.run_bind, Prog.run_issue, Blobz.machine_exec, Blobz.exec, repaired]
      exact ⟨rfl, repaired⟩

theorem registerIngested_fresh {blake3 : Digest} (absent : s.rows.get blake3 = none)
    (there : s.fileSize (store.canonical blake3) = some size) (info : NewBlobMeta) (now : Int) :
    ((store.registerIngested blake3 info now).run s).2.drive = s.drive ∧
      ∃ row, ((store.registerIngested blake3 info now).run s).2.rows.get blake3 = some row ∧
        store.fileOf row = store.canonical blake3 ∧ row.size = size ∧ row.softDeleted = false := by
  obtain ⟨row, rows, hashed, path, external, kept, added, ran⟩ := run_insertRow (s := s) blake3
    blake3 (relPath blake3) size false info now absent
  have read : (s.drive.read (store.canonical blake3)).map List.length = some size := there
  unfold registerIngested
  simp only [Prog.run_bind, Prog.run_issue, Blobz.machine_exec, Blobz.exec, absent, read]
  rw [ran]
  refine ⟨rfl, row, ?_, ?_, kept⟩
  · rw [Table.get_insert _ _ _ added, if_pos hashed.symm]
  · rw [fileOf_managed external (path.trans (congrArg relPath hashed.symm)), hashed]

end SqliteBlobStore

namespace StorageNode

variable {π ε H : Type} [DecidableEq ε] [DecidableEq H] (store : SqliteBlobStore π ε)
  (hashes : Hashes H)

def Active (s : StorageNode ε H) (blake3 : Digest) : Prop :=
  ((localBlobPresence store blake3 : NodeProg ε H LocalBlobPresence).run s).1 = .ok .active

def contentSize (blake3 : Digest) : Nat :=
  (hashes.parse blake3).toOption.elim 0 fun hash => (hashes.content hash).length

def deliveredSize (s : Blobz ε) (blake3 : Digest) : Nat :=
  (s.fileSize (store.canonical blake3)).getD (contentSize hashes blake3)

/-- The row of a blob matches what a snatch delivers. An external row, which is never rewritten, has
the size of it, and a row with a file elsewhere has that file as long. -/
structure Matches (s : Blobz ε) (row : BlobRecord) : Prop where
  size : row.external = true → row.size = deliveredSize store hashes s row.blake3
  file : store.fileOf row ≠ store.canonical row.blake3 →
    s.fileSize (store.fileOf row) = some (deliveredSize store hashes s row.blake3)

variable {store hashes} {s t : StorageNode ε H}

@[simp] theorem machine_exec_node {β : Type} (command : NodeCmd ε H β) (s : StorageNode ε H) :
    Machine.exec command s = exec command s := rfl

omit [DecidableEq ε] in
@[simp] theorem added_self (s : Blobz ε) : added s s = 0 := by
  unfold added
  rw [List.length_eq_zero_iff, List.filter_eq_nil_iff]
  intro row present
  have found : s.rows.get row.blake3 = some row := (Table.get_eq_some _ _ _).mpr ⟨present, rfl⟩
  simp [found]

@[simp] theorem exec_getAny (blake3 : Digest) :
    exec (.blobz (.getAny blake3)) s = (s.blobz.rows.get blake3, s) := by
  simp [exec, Blobz.exec]

@[simp] theorem exec_metadata (entry : ε) :
    exec (.blobz (.metadata entry)) s = (s.blobz.fileSize entry, s) := by
  simp [exec, Blobz.exec, Blobz.fileSize]

@[simp] theorem exec_read (entry : ε) :
    exec (.blobz (.read entry)) s = (s.blobz.drive.read entry, s) := by
  simp [exec, Blobz.exec]

@[simp] theorem exec_storage {β : Type} (command : StorageCmd ε H β) :
    exec (.storage command) s = execStorage command s := rfl

def presence (store : SqliteBlobStore π ε) (s : Blobz ε) (blake3 : Digest) : LocalBlobPresence :=
  match s.rows.get blake3 with
  | none => .missing
  | some row =>
    if row.softDeleted then .softDeleted
    else if s.fileSize (store.fileOf row) ≠ some row.size ∨ row.size = 0 then .missing
    else .active

theorem run_localBlobPresence (blake3 : Digest) :
    (localBlobPresence store blake3 : NodeProg ε H LocalBlobPresence).run s =
      (.ok (presence store s.blobz blake3), s) := by
  unfold localBlobPresence presence
  simp only [Prog.run_bind, Prog.run_issue, machine_exec_node, exec_getAny]
  cases s.blobz.rows.get blake3 with
  | none => rfl
  | some row =>
    by_cases deleted : row.softDeleted = true
    · simp [deleted]
    · simp only [deleted, Bool.false_eq_true, if_false, Prog.run_bind, Prog.run_issue,
        machine_exec_node, exec_metadata]
      split
      · rfl
      · rfl

theorem active_iff (blake3 : Digest) : s.Active store blake3 ↔
    presence store s.blobz blake3 = .active := by
  rw [Active, run_localBlobPresence]
  exact iff_of_eq (Except.ok.injEq _ _)

omit [DecidableEq ε] in
theorem presence_active_iff {b : Blobz ε} {blake3 : Digest} {row : BlobRecord}
    (found : b.rows.get blake3 = some row) (spared : row.softDeleted = false) :
    presence store b blake3 = .active ↔
      b.fileSize (store.fileOf row) = some row.size ∧ row.size ≠ 0 := by
  unfold presence
  rw [found]
  simp only [spared, Bool.false_eq_true, if_false]
  split
  · rename_i differs
    simp only [reduceCtorEq, false_iff]
    exact fun same => differs.elim (fun differs => differs same.1) same.2
  · rename_i same
    rw [not_or, not_not] at same
    exact iff_of_true rfl same

omit [DecidableEq ε] in
theorem active_or_missing {b : Blobz ε} {blake3 : Digest}
    (spared : ∀ row, b.rows.get blake3 = some row → row.softDeleted = false) :
    presence store b blake3 = .active ∨ presence store b blake3 = .missing := by
  unfold presence
  cases found : b.rows.get blake3 with
  | none => exact .inr rfl
  | some row =>
    simp only [spared row found, Bool.false_eq_true, if_false]
    split
    · exact .inr rfl
    · exact .inl rfl

def always {β : Type} (_ : NodeCmd ε H β) (_ : StorageNode ε H) : Prop := True

theorem ends_always {α : Type} {p : NodeProg ε H α}
    {post : Except SnatchError α → StorageNode ε H → Prop} (ends : p.Ends always s post) :
    post (p.run s).1 (p.run s).2 := Prog.ends_true.mp ends

theorem ends_failedBy {α : Type} {context : String} {value : Except String α}
    {post : Except SnatchError α → StorageNode ε H → Prop}
    (failed : ∀ error, post (.error error) s) (done : ∀ answer, post (.ok answer) s) :
    (failedBy context value).Ends always s post := by
  cases value with
  | ok value => exact done value
  | error error => exact failed _

variable (store hashes) in
theorem exportTryReference_fills (hash : H) (outside : Surroundings) :
    (exportTryReference store hashes hash outside).Ends always s fun result t =>
      result = .ok () → s.blobz.Filled t.blobz (store.canonical (hashes.toHex hash))
        (hashes.content hash).length := by
  unfold exportTryReference
  simp only [Prog.ends_bind, Prog.ends_issue, Prog.ends_ite, machine_exec_node, exec_storage,
    exec_read, execStorage]
  refine fun _ => ⟨fun present _ => ?_, fun absent => ?_⟩
  · obtain ⟨bytes, there⟩ := Option.isSome_iff_exists.mp present
    have filled := Blobz.filled_of_there (congrArg (Option.map List.length) there)
      (hashes.content hash).length
    rw [there]
    simp only [Prog.ends_ite]
    refine ⟨fun _ => ends_failedBy (fun _ failed => by cases failed) fun _ _ => filled, ?_⟩
    exact fun _ failed => by cases failed
  · have empty := Option.not_isSome_iff_eq_none.mp absent
    have filled := Blobz.filled_write empty (hashes.content hash)
    refine ends_failedBy (fun _ failed => by cases failed) fun _ _ => ?_
    rw [empty]
    refine ⟨fun _ => ends_failedBy (fun _ failed => by cases failed) fun _ _ => filled, ?_⟩
    exact fun refused => absurd rfl refused

theorem ends_guarded {hash : H} {inner : NodeProg ε H Unit} (post : Blobz ε → Prop)
    (inside : ∀ u : StorageNode ε H, u.blobz = s.blobz → inner.Ends always u fun result t =>
      result = .ok () → post t.blobz) :
    (guarded hash inner).Ends always s fun result t => result = .ok () → post t.blobz := by
  unfold guarded
  simp only [Prog.ends_bind, Prog.ends_issue, Prog.ends_result, Prog.ends_ofExcept]
  intro _
  refine (inside (Machine.exec (NodeCmd.storage (.insertInFlight hash)) s).2 rfl).imp ?_
  exact fun result t reached _ done => reached done

theorem ends_transfer (hash : H) (outside : Surroundings) :
    (transfer hash outside).Ends always s fun _ t => t.blobz = s.blobz := by
  unfold transfer
  split
  · exact fun _ => rfl
  · simp only [Prog.ends_bind, Prog.ends_issue, Prog.ends_ite]
    exact fun _ => ⟨fun _ => rfl, fun _ => rfl⟩
  · exact rfl

theorem pos_of_looksComplete {size : Option Nat} {expectedSize : Nat}
    (complete : looksComplete (size.getD 0) expectedSize = true) :
    ∃ bytes, size = some bytes ∧ 0 < bytes := by
  unfold looksComplete at complete
  cases size with
  | none => cases complete
  | some bytes =>
    rw [Bool.and_eq_true, decide_eq_true_eq] at complete
    exact ⟨bytes, rfl, complete.1⟩

omit [DecidableEq ε] in
theorem place_of_complete {b b' : Blobz ε} {blake3 hex : Digest} {size expectedSize : Nat}
    (filled : b.Filled b' (store.canonical hex) size)
    (incomplete : ¬looksComplete ((b.fileSize (store.canonical blake3)).getD 0) expectedSize = true)
    (complete : looksComplete ((b'.fileSize (store.canonical blake3)).getD 0) expectedSize = true) :
    hex = blake3 := by
  by_contra apart
  have elsewhere : store.canonical blake3 ≠ store.canonical hex := fun same =>
    apart (store.apart same).symm
  rw [filled.elsewhere _ elsewhere] at complete
  exact incomplete complete

theorem downloadBlob_fills (blake3 : Digest) (provider : String) (expectedSize : Nat)
    (outside : Surroundings) :
    (downloadBlob store hashes blake3 provider expectedSize outside).Ends always s fun result t =>
      result = .ok () →
        s.blobz.Filled t.blobz (store.canonical blake3) (contentSize hashes blake3) ∧
          0 < deliveredSize store hashes s.blobz blake3 := by
  unfold downloadBlob
  simp only [Prog.ends_bind, Prog.ends_require, reduceCtorEq, false_implies, implies_true, and_true]
  intro _
  cases parsed : hashes.parse blake3 with
  | error error => exact fun failed => by cases failed
  | ok hash =>
    have size : contentSize hashes blake3 = (hashes.content hash).length := by
      rw [contentSize, parsed]
      rfl
    rw [size]
    simp only [targetLooksComplete, Prog.ends_bind, Prog.ends_issue, Prog.ends_ret, Prog.ends_ite,
      machine_exec_node, exec_metadata]
    refine fun _ => ⟨fun complete => ?_, fun incomplete => ?_⟩
    · obtain ⟨bytes, there, filled⟩ := pos_of_looksComplete complete
      refine ends_failedBy (fun _ failed => by cases failed) fun _ _ => ⟨?_, ?_⟩
      · exact Blobz.filled_of_there there _
      · rwa [deliveredSize, there, Option.getD_some]
    · cases outside.endpointId provider with
      | error error => exact fun failed => by cases failed
      | ok _ =>
        refine ends_guarded (fun b => s.blobz.Filled b (store.canonical blake3)
          (hashes.content hash).length ∧ 0 < deliveredSize store hashes s.blobz blake3) ?_
        intro u same
        simp only [Prog.ends_bind]
        refine (ends_transfer (s := u) hash outside).imp fun result v kept => ?_
        cases result with
        | error error => exact fun failed => by cases failed
        | ok _ =>
          refine (exportTryReference_fills store hashes hash outside).imp fun result w filled => ?_
          cases result with
          | error error => exact fun failed => by cases failed
          | ok _ =>
            have filled := filled rfl
            rw [kept, same] at filled
            simp only [verifyExportedSize, Prog.ends_bind, Prog.ends_issue, Prog.ends_ite,
              machine_exec_node, exec_metadata]
            refine fun _ => ⟨fun complete _ => ?_, fun _ failed => by cases failed⟩
            have named := place_of_complete filled incomplete complete
            rw [named] at filled
            obtain ⟨bytes, there, pos⟩ := pos_of_looksComplete complete
            have delivered : deliveredSize store hashes s.blobz blake3 = bytes := by
              rw [deliveredSize, size]
              exact Option.some.inj (filled.there.symm.trans there)
            exact ⟨filled, delivered ▸ pos⟩

omit [DecidableEq H] in
theorem ingested_active_iff {b b' : Blobz ε} {row : BlobRecord}
    (filled : b.Filled b' (store.canonical row.blake3) (contentSize hashes row.blake3))
    (some_bytes : 0 < deliveredSize store hashes b row.blake3)
    (stale : ¬(b.fileSize (store.fileOf row) = some row.size ∧ row.size ≠ 0)) :
    b'.fileSize (store.fileOf row) =
        some (row.ingested (deliveredSize store hashes b row.blake3)).size ∧
      (row.ingested (deliveredSize store hashes b row.blake3)).size ≠ 0 ↔
      Matches store hashes b row := by
  have there : b'.fileSize (store.canonical row.blake3) =
      some (deliveredSize store hashes b row.blake3) := filled.there
  by_cases external : row.external = true
  · rw [BlobRecord.ingested, if_pos external]
    constructor
    · rintro ⟨size, nonzero⟩
      have home : store.fileOf row = store.canonical row.blake3 := by
        by_contra apart
        rw [filled.elsewhere _ apart] at size
        exact stale ⟨size, nonzero⟩
      rw [home, there] at size
      exact ⟨fun _ => (Option.some.inj size).symm, fun apart => absurd home apart⟩
    · intro matching
      have size := matching.size external
      by_cases home : store.fileOf row = store.canonical row.blake3
      · rw [home, there, ← size]
        exact ⟨rfl, size ▸ some_bytes.ne'⟩
      · have same := matching.file home
        rw [← size] at same
        exact absurd ⟨same, size ▸ some_bytes.ne'⟩ stale
  · rw [BlobRecord.ingested, if_neg external]
    constructor
    · rintro ⟨size, -⟩
      refine ⟨fun external' => absurd external' external, fun apart => ?_⟩
      rw [← filled.elsewhere _ apart]
      exact size
    · intro matching
      refine ⟨?_, some_bytes.ne'⟩
      by_cases home : store.fileOf row = store.canonical row.blake3
      · rw [home]
        exact there
      · rw [filled.elsewhere _ home]
        exact matching.file home

theorem run_embed_blobz {α : Type} (p : Prog (BlobCmd ε) SnatchError α) (s : StorageNode ε H) :
    ((p.embed .blobz : NodeProg ε H α).run s).1 = (p.run s.blobz).1 ∧
      ((p.embed .blobz : NodeProg ε H α).run s).2.blobz = (p.run s.blobz).2 :=
  Prog.run_embed StorageNode.blobz (fun _ _ => ⟨rfl, rfl⟩) p s

theorem run_ingestBlob (blake3 : Digest) (descriptor : BlobDescriptor) (now : Int) :
    ((ingestBlob store blake3 descriptor now : NodeProg ε H Unit).run s).2.blobz =
      ((store.registerIngested blake3 (ingestMeta descriptor) now).run s.blobz).2 := by
  unfold ingestBlob
  rw [Prog.run_bind_ret, (run_embed_blobz _ s).2, Prog.run_mapError]

variable (store hashes) in
/-- What a snatch that succeeds has done: nothing for a blob that is there, or a download and the
ingestion behind it. -/
theorem snatchDescriptor_does {descriptor : BlobDescriptor} {blake3 : Digest}
    (named : descriptor.blake3 = some blake3) (outside : Surroundings) (now : Int) :
    (snatchDescriptor store hashes descriptor outside now).Ends always s fun result t =>
      result = .ok () →
        presence store s.blobz blake3 ≠ .missing ∧ t.blobz = s.blobz ∨
        presence store s.blobz blake3 = .missing ∧
          ∃ b, s.blobz.Filled b (store.canonical blake3) (contentSize hashes blake3) ∧
            0 < deliveredSize store hashes s.blobz blake3 ∧
            t.blobz = ((store.registerIngested blake3 (ingestMeta descriptor) now).run b).2 := by
  unfold snatchDescriptor
  rw [named]
  simp only [Prog.ends_bind]
  refine Prog.ends_true.mpr ?_
  rw [run_localBlobPresence]
  cases found : presence store s.blobz blake3 with
  | active => exact fun _ => .inl ⟨fun failed => (by cases failed), rfl⟩
  | softDeleted => exact fun _ => .inl ⟨fun failed => (by cases failed), rfl⟩
  | missing =>
    simp only [Prog.ends_bind, Prog.ends_ofExcept]
    cases outside.probePeers with
    | error error => exact fun failed => by cases failed
    | ok provider =>
      refine (downloadBlob_fills blake3 provider descriptor.size outside).imp ?_
      intro result u downloaded
      cases result with
      | error error => exact fun failed => by cases failed
      | ok _ =>
        obtain ⟨filled, pos⟩ := downloaded rfl
        refine Prog.ends_true.mpr fun _ => .inr ⟨trivial, u.blobz, filled, pos, ?_⟩
        exact run_ingestBlob blake3 descriptor now

omit [DecidableEq H] in
/-- Behind an ingestion there is an active copy if there was no row, or the row matches. -/
theorem registerIngested_active_iff {b b' : Blobz ε} {blake3 : Digest}
    (filled : b.Filled b' (store.canonical blake3) (contentSize hashes blake3))
    (pos : 0 < deliveredSize store hashes b blake3)
    (spared : ∀ row, b.rows.get blake3 = some row → row.softDeleted = false)
    (missing : presence store b blake3 = .missing) (info : NewBlobMeta) (now : Int) :
    presence store ((store.registerIngested blake3 info now).run b').2 blake3 = .active ↔
      ∀ row, b.rows.get blake3 = some row → Matches store hashes b row := by
  have there : b'.fileSize (store.canonical blake3) = some (deliveredSize store hashes b blake3) :=
    filled.there
  cases found : b.rows.get blake3 with
  | none =>
    have absent : b'.rows.get blake3 = none := by rw [filled.rows, found]
    obtain ⟨drive, row, kept, home, size, spared⟩ :=
      SqliteBlobStore.registerIngested_fresh absent there info now
    refine iff_of_true ?_ fun row known => absurd known (Option.some_ne_none row).symm
    rw [presence_active_iff kept spared, Blobz.fileSize, drive, home, size]
    exact ⟨there, pos.ne'⟩
  | some row =>
    obtain rfl : row.blake3 = blake3 := ((Table.get_eq_some _ _ _).mp found).2
    have kept : b'.rows.get row.blake3 = some row := by rw [filled.rows, found]
    have alive := spared row found
    obtain ⟨drive, repaired⟩ :=
      SqliteBlobStore.registerIngested_existing kept there pos info now
    have alive' : (row.ingested (deliveredSize store hashes b row.blake3)).softDeleted = false := by
      rw [SqliteBlobStore.softDeleted_ingested, alive]
    have stale : ¬(b.fileSize (store.fileOf row) = some row.size ∧ row.size ≠ 0) := by
      rw [← presence_active_iff found alive, missing]
      decide
    rw [presence_active_iff repaired alive', Blobz.fileSize, drive,
      SqliteBlobStore.fileOf_ingested, ← Blobz.fileSize, ingested_active_iff filled pos stale]
    simp

/-- A snatch that succeeds leaves an active copy exactly if there was one, or if the row of the
blob, where there is one, matches what is delivered. -/
theorem snatch_leaves_active_iff (s : StorageNode ε H) {descriptor : BlobDescriptor}
    {blake3 : Digest} (named : descriptor.blake3 = some blake3)
    (spared : ∀ row, s.blobz.rows.get blake3 = some row → row.softDeleted = false)
    (outside : Surroundings) (now : Int)
    (ran : ((snatchDescriptor store hashes descriptor outside now).run s).1 = .ok ()) :
    ((snatchDescriptor store hashes descriptor outside now).run s).2.Active store blake3 ↔
      s.Active store blake3 ∨
        ∀ row, s.blobz.rows.get blake3 = some row → Matches store hashes s.blobz row := by
  have ends := snatchDescriptor_does (s := s) store hashes named outside now
  have done := ends_always ends ran
  rw [active_iff, active_iff]
  obtain ⟨there, same⟩ | ⟨missing, b, filled, pos, same⟩ := done
  · have active : presence store s.blobz blake3 = .active :=
      (active_or_missing spared).resolve_right there
    rw [same]
    exact iff_of_true active (.inl active)
  · rw [same, registerIngested_active_iff filled pos spared missing]
    exact (or_iff_right (by rw [missing]; decide)).symm

/-- The row is external, and its file, which is not the one at the place of the hash, is gone or has
another size. -/
structure Strays (store : SqliteBlobStore π ε) (b : Blobz ε) (row : BlobRecord) : Prop where
  found : b.rows.get row.blake3 = some row
  external : row.external = true
  spared : row.softDeleted = false
  elsewhere : store.fileOf row ≠ store.canonical row.blake3
  stale : ¬(b.fileSize (store.fileOf row) = some row.size ∧ row.size ≠ 0)

omit [DecidableEq ε] in
theorem Strays.missing {b : Blobz ε} {row : BlobRecord} (strays : Strays store b row) :
    presence store b row.blake3 = .missing := by
  have spared : ∀ other, b.rows.get row.blake3 = some other → other.softDeleted = false := by
    intro other known
    cases strays.found.symm.trans known
    exact strays.spared
  refine (active_or_missing spared).resolve_left fun active => strays.stale ?_
  exact (presence_active_iff strays.found strays.spared).mp active

theorem Strays.snatch {row : BlobRecord} (strays : Strays store s.blobz row)
    {descriptor : BlobDescriptor} (named : descriptor.blake3 = some row.blake3)
    (outside : Surroundings) (now : Int)
    (ran : ((snatchDescriptor store hashes descriptor outside now).run s).1 = .ok ()) :
    Strays store ((snatchDescriptor store hashes descriptor outside now).run s).2.blobz row := by
  have ends := snatchDescriptor_does (s := s) store hashes named outside now
  obtain ⟨there, -⟩ | ⟨-, b, filled, pos, same⟩ := ends_always ends ran
  · exact absurd strays.missing there
  · have kept : b.rows.get row.blake3 = some row := by rw [filled.rows, strays.found]
    obtain ⟨drive, found⟩ := SqliteBlobStore.registerIngested_existing kept filled.there pos
      (ingestMeta descriptor) now
    rw [BlobRecord.ingested, if_pos strays.external] at found
    rw [same]
    refine ⟨found, strays.external, strays.spared, strays.elsewhere, ?_⟩
    rw [Blobz.fileSize, drive, ← Blobz.fileSize, filled.elsewhere _ strays.elsewhere]
    exact strays.stale

variable (store hashes) in
def scans (descriptor : BlobDescriptor) : List (Surroundings × Int) → NodeProg ε H Unit
  | [] => .ret ()
  | (outside, now) :: rest => do
    snatchDescriptor store hashes descriptor outside now
    scans descriptor rest

theorem Strays.scans {row : BlobRecord} (strays : Strays store s.blobz row)
    {descriptor : BlobDescriptor} (named : descriptor.blake3 = some row.blake3)
    (attempts : List (Surroundings × Int))
    (ran : ((scans store hashes descriptor attempts).run s).1 = .ok ()) :
    ¬((scans store hashes descriptor attempts).run s).2.Active store row.blake3 := by
  induction attempts generalizing s with
  | nil =>
    rw [active_iff]
    exact fun active => by cases strays.missing.symm.trans active
  | cons attempt rest ih =>
    obtain ⟨outside, now⟩ := attempt
    obtain ⟨_, t, first, whole⟩ := Prog.run_bind_ok ran
    have one := congrArg Prod.fst first
    have strays' := strays.snatch named outside now one
    rw [first] at strays'
    have whole : (StorageNode.scans store hashes descriptor ((outside, now) :: rest)).run s =
        (StorageNode.scans store hashes descriptor rest).run t := whole
    rw [whole] at ran ⊢
    exact ih strays' ran

end StorageNode

open StorageNode

def spelledHashes : Hashes Digest where
  parse digest := .ok digest
  toHex digest := digest
  content digest := (digest.text.drop 2).map fun byte => UInt8.ofNat byte.toNat

def willing : Surroundings where
  probePeers := .ok "peer"
  downloader := true
  endpointId _ := .ok ()
  download := .ok ()
  exported := .ok ()
  ensure := .ok ()

def wanted : BlobDescriptor := ⟨some (plainStore.hash [7]), "song.flac", "audio/flac", 1⟩

def movedAway : StorageNode (List Char) Digest :=
  let path := ['/', 's', 'o', 'n', 'g']
  let registered := ((plainStore.registerExternalPath path {} false 0).run
    ⟨∅, (Drive.empty []).write path [7]⟩).2
  ⟨{ registered with drive := registered.drive.remove path }, none, ∅, ∅, 0⟩

def staleSize : StorageNode (List Char) Digest :=
  let inserted := ((plainStore.insert [7] {} 0).run .empty).2
  ⟨(Blobz.exec (.updateSize (plainStore.hash [7]) 0) inserted).2, none, ∅, ∅, 0⟩

/-- The row of the whole file is repaired. -/
theorem stale_size_is_repaired : ((snatchDescriptor plainStore spelledHashes wanted willing 0).run
    staleSize).2.Active plainStore (plainStore.hash [7]) := by
  have row : (staleSize.blobz.rows.get (plainStore.hash [7])).all (fun row => !row.softDeleted &&
      !row.external && plainStore.fileOf row = plainStore.canonical row.blake3) = true := by
    decide
  simp only [Option.all_eq_true, Bool.and_eq_true, Bool.not_eq_true', decide_eq_true_eq] at row
  refine (snatch_leaves_active_iff staleSize rfl ?_ willing 0 rfl).mpr (.inr ?_)
  · exact fun other known => (row other known).1.1
  · intro other known
    obtain ⟨⟨-, managed⟩, home⟩ := row other known
    constructor
    · intro external
      cases managed.symm.trans external
    · intro apart
      exact absurd home apart

/-- The blob of the lost file is fetched, and is missing still. -/
theorem lost_file_stays_missing : ¬∀ (s : StorageNode (List Char) Digest)
    (descriptor : BlobDescriptor) (blake3 : Digest) (outside : Surroundings) (now : Int),
    descriptor.blake3 = some blake3 →
    (∀ row, s.blobz.rows.get blake3 = some row → row.softDeleted = false) →
    ((snatchDescriptor plainStore spelledHashes descriptor outside now).run s).1 = .ok () →
    ((snatchDescriptor plainStore spelledHashes descriptor outside now).run s).2.Active
      plainStore blake3 := by
  intro claimed
  have spared : (movedAway.blobz.rows.get (plainStore.hash [7])).all (!·.softDeleted) = true := by
    decide
  simp only [Option.all_eq_true, Bool.not_eq_true'] at spared
  have active := claimed movedAway wanted (plainStore.hash [7]) willing 0 rfl spared rfl
  rw [active_iff] at active
  exact absurd active (by decide)

end Tomb.Reliquary
