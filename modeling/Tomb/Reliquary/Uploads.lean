import Tomb.Reliquary.ChunkedImport

/-! Concurrent calls on one chunked import: what their callers see, and how far each has come. -/
namespace Tomb.Reliquary
open Tomb.Lib

inductive ImportOp where
  | append (id : List Char) (data : Bytes)
  | finish (id : List Char) (info : NewBlobMeta) (now : Int)
  | finishToPath (id : List Char)
  | abort (id : List Char)

@[grind =] def ImportOp.id : ImportOp → List Char
  | .append id _ => id
  | .finish id _ _ => id
  | .finishToPath id => id
  | .abort id => id

/-- The import under concurrent calls. `wrote` is what the appends of an id have written so far,
`appended` what those have that were answered; `finished` are the uploads that ended well, with
the record if they were adopted. -/
structure Uploading (π ε : Type) where
  imports : Imports π ε
  (wrote appended : List Char → Bytes)
  finished : List (List Char × Option BlobRecord)

structure UploadCall (π ε β : Type) where
  caller : ImportOp
  command : ImportCmd π ε β

namespace Uploading

variable {π ε : Type} [DecidableEq ε]

def extend (of : List Char → Bytes) (id : List Char) (data : Bytes) : List Char → Bytes :=
  Function.update of id (of id ++ data)

def noteUploadWrote (caller : ImportOp) (wrote : List Char → Bytes) {β : Type} :
    UploadCmd π ε β → List Char → Bytes
  | .writeAll _ data => extend wrote caller.id data
  | _ => wrote

@[grind =] def noteWrote (caller : ImportOp) (wrote : List Char → Bytes) {β : Type} :
    ImportCmd π ε β → List Char → Bytes
  | .upload command => noteUploadWrote caller wrote command
  | .store _ => wrote

@[grind =] def noteStoreAppended (caller : ImportOp) (appended : List Char → Bytes) {β : Type} :
    BlobCmd ε β → β → List Char → Bytes
  | .metadata _, size =>
    match caller, size with
    | .append id data, some _ => extend appended id data
    | _, _ => appended
  | _, _ => appended

@[grind =] def noteAppended (caller : ImportOp) (appended : List Char → Bytes) {β : Type} :
    ImportCmd π ε β → β → List Char → Bytes
  | .upload _, _ => appended
  | .store command, answer => noteStoreAppended caller appended command answer

@[grind =]
def noteStoreFinished (caller : ImportOp) (finished : List (List Char × Option BlobRecord))
    {β : Type} : BlobCmd ε β → β → List (List Char × Option BlobRecord)
  | .getAny _, found =>
    match found with
    | some record => (caller.id, some record) :: finished
    | none => finished
  | _, _ => finished

def noteUploadFinished (caller : ImportOp) (finished : List (List Char × Option BlobRecord))
    {β : Type} : UploadCmd π ε β → β → List (List Char × Option BlobRecord)
  | .removeUpload _, found =>
    match caller, found with
    | .finishToPath id, some _ => (id, none) :: finished
    | _, _ => finished
  | _, _ => finished

@[grind =]
def noteFinished (caller : ImportOp) (finished : List (List Char × Option BlobRecord)) {β : Type} :
    ImportCmd π ε β → β → List (List Char × Option BlobRecord)
  | .upload command, answer => noteUploadFinished caller finished command answer
  | .store command, answer => noteStoreFinished caller finished command answer

@[grind =] def exec {β : Type} (call : UploadCall π ε β) (s : Uploading π ε) : β × Uploading π ε :=
  ((Imports.exec call.command s.imports).1, {
    imports := (Imports.exec call.command s.imports).2
    wrote := noteWrote call.caller s.wrote call.command
    appended := noteAppended call.caller s.appended call.command
      (Imports.exec call.command s.imports).1
    finished := noteFinished call.caller s.finished call.command
      (Imports.exec call.command s.imports).1 })

instance : Machine (UploadCall π ε) (Uploading π ε) := ⟨exec⟩

@[simp] theorem machine_exec {β : Type} (call : UploadCall π ε β) (s : Uploading π ε) :
    Machine.exec call s = exec call s := rfl

end Uploading

def ImportOp.prog {π ε : Type} (store : SqliteBlobStore π ε) :
    ImportOp → ImportProg π ε Unit
  | .append id data => do
    let _ ← ChunkedImport.append store id data
    .ret ()
  | .finish id info now => do
    let _ ← ChunkedImport.finish store id info now
    .ret ()
  | .finishToPath id => do
    let _ ← ChunkedImport.finishToPath id
    .ret ()
  | .abort id => ChunkedImport.abort store id

def ImportOp.call {π ε : Type} (store : SqliteBlobStore π ε) (op : ImportOp) :
    Prog (UploadCall π ε) BlobStoreError Unit :=
  (op.prog store).embed fun command => ⟨op, command⟩

inductive UploadStage (π : Type) where
  | idle
  | resolved (id : List Char) (path : π)
  | opened (id : List Char) (path : π) (file : Nat)
  | written (id : List Char) (path : π) (data : Bytes)
  | taken (id : List Char) (path : π)
  | hashed (id : List Char) (path : π) (blake3 : Digest)
  | copied (id : List Char) (path : π) (blake3 : Digest)
  | adding (id : List Char) (blake3 : Digest)
  | inserted (id : List Char) (blake3 : Digest)
  | duplicate (id : List Char) (path : π)
  | dropping (id : List Char) (path : π)

namespace UploadStage

variable {π ε : Type} (store : SqliteBlobStore π ε)

@[grind =] def nextUpload (caller : ImportOp) (stage : UploadStage π) {β : Type} :
    UploadCmd π ε β → β → UploadStage π
  | .getUpload id, found =>
    match found with
    | some path => .resolved id path
    | none => .idle
  | .removeUpload id, found =>
    match caller, found with
    | .finish _ _ _, some path => .taken id path
    | .abort _, some path => .dropping id path
    | _, _ => .idle
  | .openAppend _, handle =>
    match stage, handle with
    | .resolved id path, some file => .opened id path file
    | _, _ => .idle
  | .writeAll _ data, _ =>
    match stage with
    | .opened id path _ => .written id path data
    | _ => .idle
  | _, _ => .idle

def nextStore (stage : UploadStage π) {β : Type} : BlobCmd ε β → β → UploadStage π
  | .read _, content =>
    match stage, content with
    | .taken id path, some bytes => .hashed id path (store.hash bytes)
    | _, _ => .idle
  | .getAny _, found =>
    match stage, found with
    | .hashed id path _, some _ => .duplicate id path
    | .hashed id path blake3, none => .hashed id path blake3
    | _, _ => .idle
  | .rename _ _, done =>
    match stage, done with
    | .hashed id _ blake3, true => .adding id blake3
    | stage, _ => stage
  | .copy _ _, done =>
    match stage, done with
    | .hashed id path blake3, true => .copied id path blake3
    | _, _ => .idle
  | .removeFile _, _ =>
    match stage with
    | .copied id _ blake3 => .adding id blake3
    | _ => .idle
  | .insertOrIgnore _, _ =>
    match stage with
    | .adding id blake3 => .inserted id blake3
    | _ => .idle
  | _, _ => .idle

@[grind =] def next (caller : ImportOp) (stage : UploadStage π) {β : Type} :
    ImportCmd π ε β → β → UploadStage π
  | .upload command, answer => stage.nextUpload caller command answer
  | .store command, answer => stage.nextStore store command answer

def legalUpload (caller : ImportOp) (stage : UploadStage π) {β : Type} :
    UploadCmd π ε β → Prop
  | .getUpload id => stage = .idle ∧ ∃ data, caller = .append id data
  | .removeUpload id => stage = .idle ∧ caller.id = id
  | .openAppend entry => ∃ id path, stage = .resolved id path ∧ entry = store.place path
  | .writeAll file data => ∃ id path, stage = .opened id path file ∧ caller = .append id data
  | _ => False

def legalStore (caller : ImportOp) (stage : UploadStage π) {β : Type} : BlobCmd ε β → Prop
  | .metadata entry => ∃ id path data, stage = .written id path data ∧
    caller = .append id data ∧ entry = store.place path
  | .read entry => ∃ id path, stage = .taken id path ∧ entry = store.place path
  | .getAny blake3 => (∃ path, stage = .hashed caller.id path blake3) ∨
    stage = .inserted caller.id blake3
  | .rename entry target => ∃ id path blake3, stage = .hashed id path blake3 ∧
    entry = store.place path ∧ target = store.canonical blake3
  | .copy entry target => ∃ id path blake3, stage = .hashed id path blake3 ∧
    entry = store.place path ∧ target = store.canonical blake3
  | .removeFile entry => ∃ id path, entry = store.place path ∧
    (stage = .duplicate id path ∨ stage = .dropping id path ∨
      ∃ blake3, stage = .copied id path blake3)
  | .insertOrIgnore row => ∃ id, stage = .adding id row.blake3 ∧
    row.external = false ∧ row.path = relPath row.blake3
  | _ => False

def legal (caller : ImportOp) (stage : UploadStage π) {β : Type} : ImportCmd π ε β → Prop
  | .upload command => stage.legalUpload store caller command
  | .store command => stage.legalStore store caller command

end UploadStage

def uploading {π ε : Type} (store : SqliteBlobStore π ε) (caller : ImportOp) :
    Protocol (ImportCmd π ε) (UploadStage π) where
  start := .idle
  next stage _ command answer := stage.next store caller command answer
  legal stage _ command := stage.legal store caller command
  final _ _ := True

def uploads {π ε : Type} (store : SqliteBlobStore π ε) :
    Protocol (UploadCall π ε) (UploadStage π) where
  start := .idle
  next stage _ call answer := stage.next store call.caller call.command answer
  legal stage _ call := stage.legal store call.caller call.command
  final _ _ := True

section Follows

variable {π ε : Type} {store : SqliteBlobStore π ε} {caller : ImportOp} {α : Type}

theorem uploads_embed (p : ImportProg π ε α) (stage : UploadStage π)
    (post : UploadStage π → Except BlobStoreError α → Prop) :
    (uploads store).Follows (p.embed fun command => ⟨caller, command⟩) stage post ↔
      (uploading store caller).Follows p stage post := by
  induction p generalizing stage with
  | ret value => rfl
  | fail error => rfl
  | call command next ih => exact and_congr_right fun _ => forall_congr' fun answer => ih answer _

theorem uploading_step {β : Type} {command : ImportCmd π ε β} {later : β → ImportProg π ε α}
    {stage : UploadStage π} {post : UploadStage π → Except BlobStoreError α → Prop} :
    (uploading store caller).Follows (.issue command >>= later) stage post ↔
      stage.legal store caller command ∧ ∀ answer, (uploading store caller).Follows
        (later answer) (stage.next store caller command answer) post := by
  rw [Protocol.follows_bind, Protocol.follows_issue]
  rfl

abbrev Anywhere (_ : UploadStage π) (_ : Except BlobStoreError α) : Prop := True

theorem append_follows (id : List Char) (data : Bytes) :
    (uploading store (.append id data)).Follows (ChunkedImport.append store id data) .idle
      Anywhere := by
  unfold ChunkedImport.append
  rw [uploading_step]
  refine ⟨⟨rfl, data, rfl⟩, fun found => ?_⟩
  cases found with
  | none => trivial
  | some path =>
    simp only [UploadStage.next, UploadStage.nextUpload]
    rw [uploading_step]
    refine ⟨⟨id, path, rfl, rfl⟩, fun opened => ?_⟩
    cases opened with
    | none => trivial
    | some file =>
      simp only [UploadStage.next, UploadStage.nextUpload]
      rw [uploading_step]
      refine ⟨⟨id, path, rfl, rfl⟩, fun _ => ?_⟩
      rw [uploading_step]
      refine ⟨⟨id, path, data, rfl, rfl, rfl⟩, fun size => ?_⟩
      cases size <;> trivial

theorem insertRow_uploads (id : List Char) (info' : NewBlobMeta) (now' : Int) (blake3 : Digest)
    (size : Nat) (info : NewBlobMeta) (now : Int) :
    (uploading store (.finish id info' now')).Follows
      ((SqliteBlobStore.insertRow blake3 blake3 (relPath blake3) size false info now :
        BlobProg ε BlobRecord).embed .store) (.adding id blake3) Anywhere := by
  unfold SqliteBlobStore.insertRow
  rw [Prog.embed_bind, Prog.embed_issue, uploading_step]
  refine ⟨⟨id, rfl, rfl, rfl⟩, fun _ => ?_⟩
  rw [Prog.embed_bind, Prog.embed_issue, uploading_step]
  refine ⟨.inr rfl, fun found => ?_⟩
  cases found <;> trivial

theorem finish_follows (id : List Char) (info : NewBlobMeta) (now : Int) :
    (uploading store (.finish id info now)).Follows (ChunkedImport.finish store id info now) .idle
      Anywhere := by
  unfold ChunkedImport.finish ChunkedImport.take
  rw [Protocol.follows_bind, uploading_step]
  refine ⟨⟨rfl, rfl⟩, fun found => ?_⟩
  cases found with
  | none => trivial
  | some path =>
    simp only [UploadStage.next, UploadStage.nextUpload, Protocol.follows_ret,
      SqliteBlobStore.adoptLocalFile]
    rw [Prog.embed_bind, Prog.embed_issue, uploading_step]
    refine ⟨⟨id, path, rfl, rfl⟩, fun content => ?_⟩
    cases content with
    | none => trivial
    | some bytes =>
      simp only [UploadStage.next, UploadStage.nextStore]
      rw [Prog.embed_bind, Prog.embed_issue, uploading_step]
      refine ⟨.inl ⟨path, rfl⟩, fun known => ?_⟩
      cases known with
      | some existing =>
        simp only [UploadStage.next, UploadStage.nextStore]
        rw [Prog.embed_bind, Prog.embed_issue, uploading_step]
        exact ⟨⟨id, path, rfl, .inl rfl⟩, fun _ => trivial⟩
      | none =>
        simp only [SqliteBlobStore.moveFile]
        rw [Prog.embed_bind, Prog.embed_bind, Prog.embed_issue, Protocol.follows_bind,
          uploading_step]
        refine ⟨⟨id, path, _, rfl, rfl, rfl⟩, fun renamed => ?_⟩
        cases renamed with
        | true => exact insertRow_uploads _ _ _ _ _ _ _
        | false =>
          simp only [Bool.false_eq_true, if_false]
          rw [Prog.embed_bind, Prog.embed_issue, uploading_step]
          refine ⟨⟨id, path, _, rfl, rfl, rfl⟩, fun copied => ?_⟩
          cases copied with
          | false => exact trivial
          | true =>
            simp only [if_true]
            rw [Prog.embed_bind, Prog.embed_issue, uploading_step]
            exact ⟨⟨id, path, rfl, .inr (.inr ⟨_, rfl⟩)⟩, fun _ => insertRow_uploads _ _ _ _ _ _ _⟩

theorem ImportOp.prog_follows (op : ImportOp) :
    (uploading store op).Follows (op.prog store) .idle Anywhere := by
  have wrapped {β : Type} {p : ImportProg π ε β}
      (follows : (uploading store op).Follows p .idle Anywhere) :
      (uploading store op).Follows (p >>= fun _ => .ret ()) .idle Anywhere := by
    rw [Protocol.follows_bind]
    refine follows.imp fun stage result _ => ?_
    cases result <;> trivial
  cases op with
  | append id data => exact wrapped (append_follows id data)
  | finish id info now => exact wrapped (finish_follows id info now)
  | finishToPath id =>
    refine wrapped ?_
    unfold ChunkedImport.finishToPath ChunkedImport.take
    rw [uploading_step]
    refine ⟨⟨rfl, rfl⟩, fun found => ?_⟩
    cases found <;> trivial
  | abort id =>
    simp only [ImportOp.prog, ChunkedImport.abort]
    rw [uploading_step]
    refine ⟨⟨rfl, rfl⟩, fun found => ?_⟩
    cases found with
    | none => trivial
    | some path =>
      simp only [UploadStage.next, UploadStage.nextUpload]
      rw [uploading_step]
      exact ⟨⟨id, path, rfl, .inr (.inl rfl)⟩, fun _ => trivial⟩

theorem ImportOp.call_obeys (op : ImportOp) :
    (Thread.start (op.call store)).Obeys (uploads store) :=
  (uploads_embed _ _ _).mpr op.prog_follows

end Follows

end Tomb.Reliquary
