import Tomb.Lib.Pool
import Tomb.Reliquary.RowFiles

/-! Concurrent calls of the blob store: each query and each file operation is one step, and the
protocol of a call says how far it has come. -/
namespace Tomb.Reliquary
open Tomb.Lib

variable {π ε : Type} [DecidableEq ε]

def BlobOp.promises : BlobOp π → Bool
  | .insert _ _ _ => true
  | .adoptLocalFile _ _ _ => true
  | _ => false

def BlobOp.purges : BlobOp π → Bool
  | .hardDeleteSoftDeleted _ => true
  | _ => false

def BlobOp.ingests : BlobOp π → Bool
  | .registerIngested _ _ _ => true
  | _ => false

/-- The store under concurrent calls. `owed` are the hashes that a restore affected, or an insert or
adoption found the returned row of, since their last soft delete. `wronged` are the hashes of rows
that a purge deleted, or took the file of, while they were not soft-deleted. -/
structure Shared (ε : Type) where
  blobz : Blobz ε
  (owed wronged : List Digest)

inductive CallCmd (store : SqliteBlobStore π ε) : Type → Type
  | issued {β : Type} (caller : BlobOp π) (command : BlobCmd ε β) : CallCmd store β

namespace Shared

def noteOwed (caller : BlobOp π) {β : Type} : BlobCmd ε β → β → List Digest → List Digest
  | .getAny blake3, found, owed =>
    if caller.promises && found.isSome then blake3 :: owed else owed
  | .restore blake3, affected, owed => if affected = 0 then owed else blake3 :: owed
  | .softDelete blake3 _ _, _, owed => owed.filter (· ≠ blake3)
  | _, _, owed => owed

@[grind =] def noteWronged (store : SqliteBlobStore π ε) (caller : BlobOp π) {β : Type} :
    BlobCmd ε β → Blobz ε → List Digest → List Digest
  | .deleteRow blake3, s, wronged =>
    ((s.rows.select fun row => row.blake3 = blake3 && !row.softDeleted).map (·.blake3)) ++ wronged
  | .removeFile entry, s, wronged =>
    if caller.purges then
      ((s.rows.select fun row => store.fileOf row = entry && !row.softDeleted).map (·.blake3)) ++
        wronged
    else wronged
  | _, _, wronged => wronged

@[grind =]
def exec (store : SqliteBlobStore π ε) {β : Type} : CallCmd store β → Shared ε → β × Shared ε
  | .issued caller command, s =>
    ((Blobz.exec command s.blobz).1, {
      blobz := (Blobz.exec command s.blobz).2
      owed := noteOwed caller command (Blobz.exec command s.blobz).1 s.owed
      wronged := noteWronged store caller command s.blobz s.wronged })

instance (store : SqliteBlobStore π ε) : Machine (CallCmd store) (Shared ε) := ⟨exec store⟩

@[simp] theorem machine_exec (store : SqliteBlobStore π ε) {β : Type} (command : CallCmd store β)
    (s : Shared ε) : Machine.exec command s = exec store command s := rfl

/-- What was promised is there, and no purge took what was not soft-deleted. -/
structure Honoured (store : SqliteBlobStore π ε) (s : Shared ε) : Prop where
  owed : ∀ blake3 ∈ s.owed, ∃ row, s.blobz.rows.get blake3 = some row ∧
    row.softDeleted = false ∧ store.Backed s.blobz.drive row
  wronged : s.wronged = []

end Shared

def BlobOp.call (store : SqliteBlobStore π ε) (op : BlobOp π) :
    Prog (CallCmd store) BlobStoreError BlobAnswer :=
  (op.prog store).embed (.issued op)

/-- How far a call has come: which rows it has selected for deletion, and whether the file of the
first is removed; which file it has hashed; and which hash it has the file but not the row of. -/
inductive Stage (ε : Type) where
  | purging (selected : List BlobRecord)
  | removed (record : BlobRecord) (rest : List BlobRecord)
  | hashed (blake3 : Digest) (source : ε)
  | ingesting (blake3 : Digest)
  | adding (blake3 : Digest) (source : Option ε)

namespace Stage

def held : Stage ε → List Digest
  | .purging selected => selected.map (·.blake3)
  | .removed record rest => record.blake3 :: rest.map (·.blake3)
  | _ => []

@[grind =] def next (store : SqliteBlobStore π ε) (caller : BlobOp π) (stage : Stage ε) {β : Type} :
    BlobCmd ε β → β → Stage ε
  | .getAny blake3, found =>
    match stage, found with
    | .purging [], none => if caller.ingests then .ingesting blake3 else .purging []
    | stage, _ => stage
  | .insertOrIgnore _, _ => .purging []
  | .updateSize _ _, _ => stage
  | .updatePath _ _, _ => stage
  | .softDelete _ _ _, _ => stage
  | .restore _, _ => stage
  | .selectSoftDeleted _, selected => .purging selected.toList
  | .selectAllSoftDeleted, selected => .purging selected
  | .deleteRow _, _ =>
    match stage with
    | .purging (_ :: rest) => .purging rest
    | .removed _ rest => .purging rest
    | stage => stage
  | .read entry, content =>
    match content with
    | some bytes => .hashed (store.hash bytes) entry
    | none => stage
  | .metadata _, size =>
    match stage, size with
    | .ingesting blake3, some _ => .adding blake3 none
    | stage, _ => stage
  | .write _ content, _ => .adding (store.hash content) none
  | .removeFile _, _ =>
    match stage with
    | .purging (record :: rest) => .removed record rest
    | .adding blake3 _ => .adding blake3 none
    | stage => stage
  | .rename _ _, renamed =>
    match stage, renamed with
    | .hashed blake3 _, true => .adding blake3 none
    | stage, _ => stage
  | .copy _ _, copied =>
    match stage, copied with
    | .hashed blake3 source, true => .adding blake3 (some source)
    | stage, _ => stage

def legal (store : SqliteBlobStore π ε) (stage : Stage ε) {β : Type} : BlobCmd ε β → Prop
  | .getAny _ => stage = .purging [] ∨ ∃ blake3 source, stage = .hashed blake3 source
  | .insertOrIgnore row => ∃ source, stage = .adding row.blake3 source ∧
    row.external = false ∧ row.path = relPath row.blake3 ∧ row.softDeletedAt = none
  | .updateSize _ _ => stage = .purging []
  | .updatePath _ _ => False
  | .softDelete _ _ _ => stage = .purging []
  | .restore _ => stage = .purging []
  | .selectSoftDeleted _ => stage = .purging []
  | .selectAllSoftDeleted => stage = .purging []
  | .deleteRow blake3 => (∃ record rest, stage = .removed record rest ∧ record.blake3 = blake3) ∨
    ∃ record rest, stage = .purging (record :: rest) ∧ record.blake3 = blake3
  | .read _ => stage = .purging []
  | .metadata entry => stage = .purging [] ∨
    ∃ blake3, stage = .ingesting blake3 ∧ entry = store.canonical blake3
  | .write entry content => stage = .purging [] ∧ entry = store.canonical (store.hash content)
  | .removeFile entry => (∃ blake3, stage = .hashed blake3 entry) ∨
    (∃ blake3, stage = .adding blake3 (some entry)) ∨
    ∃ record rest, stage = .purging (record :: rest) ∧ record.external = false ∧
      entry = store.fileOf record
  | .rename entry target => ∃ blake3, stage = .hashed blake3 entry ∧
    target = store.canonical blake3
  | .copy entry target => ∃ blake3, stage = .hashed blake3 entry ∧
    target = store.canonical blake3

def final : Stage ε → Prop
  | .purging selected => selected = []
  | .removed _ _ => False
  | .hashed _ _ => True
  | .ingesting _ => True
  | .adding _ _ => False

end Stage

def calling (store : SqliteBlobStore π ε) (caller : BlobOp π) :
    Protocol (BlobCmd ε) (Stage ε) where
  start := .purging []
  next stage _ command answer := stage.next store caller command answer
  legal stage _ command := stage.legal store command
  final stage _ := stage.final

def sharing (store : SqliteBlobStore π ε) : Protocol (CallCmd store) (Stage ε) where
  start := .purging []
  next stage _ command answer :=
    match command with
    | .issued caller command => stage.next store caller command answer
  legal stage _ command :=
    match command with
    | .issued _ command => stage.legal store command
  final stage _ := stage.final

section Follows

variable {π ε : Type} {store : SqliteBlobStore π ε} {caller : BlobOp π} {α : Type}

theorem follows_embed (p : BlobProg ε α) (stage : Stage ε)
    (post : Stage ε → Except BlobStoreError α → Prop) :
    (sharing store).Follows (p.embed (.issued caller)) stage post ↔
      (calling store caller).Follows p stage post := by
  induction p generalizing stage with
  | ret value => rfl
  | fail error => rfl
  | call command next ih => exact and_congr_right fun _ => forall_congr' fun answer => ih answer _

theorem calling_step {β : Type} {command : BlobCmd ε β} {later : β → BlobProg ε α}
    {stage : Stage ε} {post : Stage ε → Except BlobStoreError α → Prop} :
    (calling store caller).Follows (.issue command >>= later) stage post ↔
      stage.legal store command ∧ ∀ answer,
        (calling store caller).Follows (later answer) (stage.next store caller command answer)
          post := by
  rw [Protocol.follows_bind, Protocol.follows_issue]
  rfl

theorem final_missing (blake3 : Digest) :
    (Stage.next store caller (.purging []) (.getAny blake3) none).final := by
  simp only [Stage.next]
  split
  · trivial
  · rfl

abbrev Ended (stage : Stage ε) (_ : Except BlobStoreError α) : Prop := stage.final

theorem insertRow_follows (blake3 : Digest) (source : Option ε) (size : Nat) (info : NewBlobMeta)
    (now : Int) : (calling store caller).Follows
      (SqliteBlobStore.insertRow blake3 blake3 (relPath blake3) size false info now)
      (.adding blake3 source) Ended := by
  unfold SqliteBlobStore.insertRow
  rw [calling_step]
  refine ⟨⟨source, rfl, rfl, rfl, rfl⟩, fun _ => ?_⟩
  rw [calling_step]
  refine ⟨.inl rfl, fun found => ?_⟩
  cases found with
  | none => exact final_missing blake3
  | some record => rfl

theorem insert_follows (bytes : Bytes) (info : NewBlobMeta) (now : Int)
    (adds : caller.ingests = false) : (calling store caller).Follows
      (store.insert bytes info now) (.purging []) Ended := by
  unfold SqliteBlobStore.insert
  rw [calling_step]
  refine ⟨.inl rfl, fun found => ?_⟩
  cases found with
  | some existing => rfl
  | none =>
    simp only [Stage.next, adds, Bool.false_eq_true, if_false]
    rw [calling_step]
    exact ⟨⟨rfl, rfl⟩, fun _ => insertRow_follows _ _ _ _ _⟩

theorem adoptLocalFile_follows (path : π) (info : NewBlobMeta) (now : Int) :
    (calling store caller).Follows (store.adoptLocalFile path info now) (.purging []) Ended := by
  unfold SqliteBlobStore.adoptLocalFile
  rw [calling_step]
  refine ⟨rfl, fun read => ?_⟩
  cases read with
  | none => rfl
  | some bytes =>
    simp only [Stage.next]
    rw [calling_step]
    refine ⟨.inr ⟨_, _, rfl⟩, fun found => ?_⟩
    cases found with
    | some existing =>
      simp only [Stage.next]
      rw [calling_step]
      exact ⟨.inl ⟨_, rfl⟩, fun _ => trivial⟩
    | none =>
      simp only [SqliteBlobStore.moveFile]
      rw [Protocol.follows_bind, calling_step]
      refine ⟨⟨_, rfl, rfl⟩, fun renamed => ?_⟩
      cases renamed with
      | true => exact insertRow_follows _ _ _ _ _
      | false =>
        simp only [Bool.false_eq_true, if_false]
        rw [calling_step]
        refine ⟨⟨_, rfl, rfl⟩, fun copied => ?_⟩
        cases copied with
        | false => exact trivial
        | true =>
          simp only [if_true]
          rw [calling_step]
          exact ⟨.inr (.inl ⟨_, rfl⟩), fun _ => insertRow_follows _ _ _ _ _⟩

theorem registerIngested_follows (blake3 : Digest) (info : NewBlobMeta) (now : Int)
    (ingests : caller.ingests = true) : (calling store caller).Follows
      (store.registerIngested blake3 info now) (.purging []) Ended := by
  unfold SqliteBlobStore.registerIngested
  rw [calling_step]
  refine ⟨.inl rfl, fun found => ?_⟩
  cases found with
  | some existing =>
    simp only [SqliteBlobStore.repairSize, Stage.next]
    rw [Protocol.follows_ite]
    refine ⟨fun _ => rfl, fun _ => ?_⟩
    rw [calling_step]
    refine ⟨.inl rfl, fun size => ?_⟩
    cases size with
    | none => rfl
    | some actualSize =>
      simp only [Stage.next]
      rw [Protocol.follows_ite]
      refine ⟨fun _ => ?_, fun _ => rfl⟩
      rw [calling_step]
      refine ⟨rfl, fun _ => ?_⟩
      rw [calling_step]
      refine ⟨.inl rfl, fun again => ?_⟩
      cases again with
      | none => exact final_missing _
      | some record => rfl
  | none =>
    simp only [Stage.next, ingests, if_true]
    rw [calling_step]
    refine ⟨.inr ⟨_, rfl, rfl⟩, fun size => ?_⟩
    cases size with
    | none => trivial
    | some size => exact insertRow_follows _ _ _ _ _

theorem markEach_follows {query : Digest → BlobCmd ε Nat}
    (legal : ∀ hash, Stage.legal store (.purging []) (query hash))
    (stays : ∀ hash affected,
      Stage.next store caller (.purging []) (query hash) affected = .purging [])
    (blake3s : List Digest) (outcome : SoftDeleteOutcome) :
    (calling store caller).Follows (SqliteBlobStore.markEach query blake3s outcome)
      (.purging []) Ended := by
  induction blake3s generalizing outcome with
  | nil => rfl
  | cons hash rest ih =>
    rw [SqliteBlobStore.markEach, calling_step]
    refine ⟨legal hash, fun affected => ?_⟩
    rw [stays]
    split
    · exact ih _
    · exact ih _

theorem purgeRow_follows {β : Type} (record : BlobRecord) (rest : List BlobRecord)
    {later : Unit → BlobProg ε β} {post : Stage ε → Except BlobStoreError β → Prop}
    (goesOn : (calling store caller).Follows (later ()) (.purging rest) post) :
    (calling store caller).Follows (store.purgeRow record >>= later)
      (.purging (record :: rest)) post := by
  rw [Protocol.follows_bind]
  unfold SqliteBlobStore.purgeRow
  cases external : record.external with
  | true =>
    simp only [Bool.not_true, Bool.false_eq_true, if_false]
    exact ⟨.inr ⟨_, _, rfl, rfl⟩, fun _ => goesOn⟩
  | false =>
    simp only [Bool.not_false, if_true]
    rw [calling_step]
    exact ⟨.inr (.inr ⟨_, _, rfl, external, rfl⟩), fun _ =>
      ⟨.inl ⟨_, _, rfl, rfl⟩, fun _ => goesOn⟩⟩

theorem purgeEach_follows (hashes : List Digest) (outcome : SoftDeleteOutcome) :
    (calling store caller).Follows (store.purgeEach hashes outcome) (.purging []) Ended := by
  induction hashes generalizing outcome with
  | nil => rfl
  | cons hash rest ih =>
    rw [SqliteBlobStore.purgeEach, calling_step]
    refine ⟨rfl, fun selected => ?_⟩
    cases selected with
    | none => exact ih _
    | some record => exact purgeRow_follows record [] (ih _)

theorem purgeRows_follows (records : List BlobRecord) (deleted : Nat) :
    (calling store caller).Follows (store.purgeRows records deleted) (.purging records) Ended := by
  induction records generalizing deleted with
  | nil => rfl
  | cons record rest ih => exact purgeRow_follows record rest (ih _)

theorem hardDelete_follows (blake3s : Option (List Digest)) :
    (calling store caller).Follows (store.hardDeleteSoftDeleted blake3s) (.purging []) Ended := by
  cases blake3s with
  | some hashes => exact purgeEach_follows hashes _
  | none => exact ⟨rfl, fun rows => purgeRows_follows rows 0⟩

/-- The calls that may run at once; the registration of an external path is not among them. -/
def BlobOp.shares : BlobOp π → Bool
  | .registerExternalPath _ _ _ _ => false
  | _ => true

theorem BlobOp.prog_follows (op : BlobOp π) (shares : op.shares = true) :
    (calling store op).Follows (op.prog store) (.purging []) Ended := by
  have wrapped {β : Type} {p : BlobProg ε β} {f : β → BlobAnswer}
      (follows : (calling store op).Follows p (.purging []) Ended) :
      (calling store op).Follows (p >>= fun value => .ret (f value)) (.purging []) Ended := by
    rw [Protocol.follows_bind]
    refine follows.imp fun stage result ended => ?_
    cases result with
    | ok value => exact ended
    | error error => exact ended
  cases op with
  | insert bytes info now => exact wrapped (insert_follows bytes info now rfl)
  | adoptLocalFile path info now => exact wrapped (adoptLocalFile_follows path info now)
  | registerExternalPath absPath info cancelled now => cases shares
  | registerIngested blake3 info now => exact wrapped (registerIngested_follows blake3 info now rfl)
  | softDelete blake3s actor now =>
    refine wrapped (markEach_follows ?_ ?_ blake3s _)
    · exact fun _ => rfl
    · exact fun _ _ => rfl
  | restore blake3s =>
    refine wrapped (markEach_follows ?_ ?_ blake3s _)
    · exact fun _ => rfl
    · exact fun _ _ => rfl
  | hardDeleteSoftDeleted blake3s => exact wrapped (hardDelete_follows blake3s)

theorem BlobOp.call_obeys (op : BlobOp π) (shares : op.shares = true) :
    (Thread.start (op.call store)).Obeys (sharing store) :=
  (follows_embed _ _ _).mpr (op.prog_follows shares)

end Follows

end Tomb.Reliquary
