import Tomb.Reliquary.Uploads
import Tomb.Reliquary.Purge

/-! What a finished upload is worth: its record has the bytes that were appended, whatever the other
calls on the import do. -/
namespace Tomb.Reliquary
open Tomb.Lib

namespace UploadStage

variable {π : Type}

def held : UploadStage π → Option (List Char)
  | .taken id _ => some id
  | .hashed id _ _ => some id
  | .copied id _ _ => some id
  | .adding id _ => some id
  | .inserted id _ => some id
  | .dropping id _ => some id
  | _ => none

def seals (id : List Char) : UploadStage π → Prop
  | .taken other _ => other = id
  | .hashed other _ _ => other = id
  | .copied other _ _ => other = id
  | .adding other _ => other = id
  | .inserted other _ => other = id
  | _ => False

def appends (id : List Char) : UploadStage π → Prop
  | .resolved other _ => other = id
  | .opened other _ _ => other = id
  | .written other _ _ => other = id
  | _ => False

end UploadStage

section Invariant

variable {π ε : Type} {store : SqliteBlobStore π ε} (imports : ChunkedImport store)
  (solo : List Char → Prop)

def ChunkedImport.part (id : List Char) : ε := store.place (imports.partPath id)

/-- All that the appends of the upload have written has been answered, if they come one at a
time. -/
def Settled (s : Uploading π ε) (id : List Char) : Prop := solo id → s.appended id = s.wrote id

def UploadStage.Sound (s : Uploading π ε) : UploadStage π → Prop
  | .idle => True
  | .resolved id path => path = imports.partPath id ∧
    ((s.imports.uploads id).isSome → Settled solo s id)
  | .opened id path file => path = imports.partPath id ∧
    s.imports.blobz.drive.Owns (imports.part id) file ∧
    ((s.imports.uploads id).isSome →
      s.imports.blobz.drive.handle (imports.part id) = some file ∧ Settled solo s id)
  | .written id path data => path = imports.partPath id ∧
    ((s.imports.uploads id).isSome → solo id → s.wrote id = s.appended id ++ data)
  | .taken id path => path = imports.partPath id ∧ s.imports.uploads id = none ∧
    Settled solo s id ∧ s.imports.blobz.drive.read (imports.part id) = some (s.wrote id)
  | .hashed id path blake3 => path = imports.partPath id ∧ s.imports.uploads id = none ∧
    Settled solo s id ∧ s.imports.blobz.drive.read (imports.part id) = some (s.wrote id) ∧
    blake3 = store.hash (s.wrote id)
  | .copied id path blake3 => path = imports.partPath id ∧ s.imports.uploads id = none ∧
    Settled solo s id ∧ s.imports.blobz.drive.read (store.canonical blake3) = some (s.wrote id) ∧
    blake3 = store.hash (s.wrote id)
  | .adding id blake3 => s.imports.uploads id = none ∧
    Settled solo s id ∧ s.imports.blobz.drive.read (store.canonical blake3) = some (s.wrote id) ∧
    blake3 = store.hash (s.wrote id)
  | .inserted id blake3 => s.imports.uploads id = none ∧ Settled solo s id ∧
    blake3 = store.hash (s.wrote id)
  | .duplicate id path => path = imports.partPath id ∧ ∃ found, (id, found) ∈ s.finished
  | .dropping id path => path = imports.partPath id ∧ s.imports.uploads id = none

/-- Two calls never take one session; none appends to what another stores; and appends that come one
at a time do not meet. -/
structure Compatible (a b : UploadStage π) : Prop where
  held : ∀ id, a.held = some id → b.held ≠ some id
  seals : ∀ id, a.seals id → ¬b.appends id
  sealed : ∀ id, b.seals id → ¬a.appends id
  solo : ∀ id, solo id → a.appends id → ¬b.appends id

variable (store) in
structure Finished (s : Uploading π ε) (stages : List (UploadStage π)) (id : List Char)
    (found : Option BlobRecord) : Prop where
  taken : s.imports.uploads id = none
  free : ∀ stage ∈ stages, stage.held ≠ some id
  quiet : ∀ record, found = some record → ∀ stage ∈ stages, ¬stage.appends id
  stored : ∀ record, found = some record → s.imports.blobz.rows.get record.blake3 = some record ∧
    record.blake3 = store.hash (s.wrote id) ∧ Settled solo s id

structure Integrity (s : Uploading π ε) (stages : List (UploadStage π)) : Prop where
  rows : ∀ row ∈ s.imports.blobz.rows, Placed store row ∧ store.Backed s.imports.blobz.drive row ∧
    ∀ id, store.fileOf row ≠ imports.part id
  sessions : ∀ id path, s.imports.uploads id = some path → path = imports.partPath id ∧
    s.imports.blobz.drive.read (imports.part id) = some (s.wrote id) ∧
    ((∀ stage ∈ stages, ¬stage.appends id) → Settled solo s id)
  finished : ∀ id found, (id, found) ∈ s.finished → Finished store solo s stages id found
  once : (s.finished.map Prod.fst).Nodup
  sound : ∀ stage ∈ stages, stage.Sound imports solo s
  apart : stages.Pairwise (Compatible solo)

/-- The record of a finished upload has a file of its hash, with what the appends of the upload wrote
if they came one at a time; and no upload is finished twice. -/
structure Uploading.Intact (store : SqliteBlobStore π ε) (s : Uploading π ε) : Prop where
  stored : ∀ id record, (id, some record) ∈ s.finished →
    ∃ bytes, s.imports.blobz.drive.read (store.fileOf record) = some bytes ∧
      store.hash bytes = record.blake3 ∧ (solo id → bytes = s.appended id)
  once : (s.finished.map Prod.fst).Nodup

variable {imports solo} {s s' : Uploading π ε} {own own' : UploadStage π}
  {others stages : List (UploadStage π)}

theorem part_ne_canonical (id : List Char) (blake3 : Digest) :
    imports.part id ≠ store.canonical blake3 :=
  fun same => imports.outside id blake3 same.symm

variable {stage : UploadStage π} {id : List Char}

theorem UploadStage.held_of_seals (seals : stage.seals id) : stage.held = some id := by
  cases stage <;> first | exact congrArg some seals | exact seals.elim

theorem UploadStage.Sound.held (sound : stage.Sound imports solo s) (held : stage.held = some id) : s.imports.uploads id = none := by
  cases stage with
  | taken other path => cases held; exact sound.2.1
  | hashed other path blake3 => cases held; exact sound.2.1
  | copied other path blake3 => cases held; exact sound.2.1
  | adding other blake3 => cases held; exact sound.1
  | inserted other blake3 => cases held; exact sound.1
  | dropping other path => cases held; exact sound.2
  | idle => cases held
  | resolved _ _ => cases held
  | opened _ _ _ => cases held
  | written _ _ _ => cases held
  | duplicate _ _ => cases held

theorem Integrity.intact (whole : Integrity imports solo s stages) : s.Intact solo store where
  stored id record member := by
    obtain ⟨known, hashed, settled⟩ := (whole.finished id _ member).stored record rfl
    obtain ⟨bytes, there, own⟩ := (whole.rows record ((Table.get_eq_some _ _ _).mp known).1).2.1
    refine ⟨bytes, there, own, fun alone => ?_⟩
    rw [settled alone]
    exact store.collisionFree (own.trans hashed)
  once := whole.once

theorem Compatible.symm {a b : UploadStage π} (compatible : Compatible solo a b) :
    Compatible solo b a where
  held id takes takes' := compatible.held id takes' takes
  seals := compatible.sealed
  sealed := compatible.seals
  solo id alone appends appends' := compatible.solo id alone appends' appends

theorem Compatible.about {a b : UploadStage π} (compatible : Compatible solo a b) {id : List Char}
    (appends : a.appends id) (id' : List Char) (about : b.seals id' ∨ b.appends id' ∧ solo id') :
    id' ≠ id := by
  rintro rfl
  rcases about with sealing | ⟨appends', alone⟩
  · exact compatible.sealed id' sealing appends
  · exact compatible.solo id' alone appends appends'

theorem Integrity.perm (whole : Integrity imports solo s stages) {stages' : List (UploadStage π)}
    (same : stages.Perm stages') : Integrity imports solo s stages' where
  rows := whole.rows
  sessions id path found := by
    obtain ⟨named, content, settled⟩ := whole.sessions id path found
    exact ⟨named, content, fun quiet => settled fun stage member =>
      quiet stage (same.mem_iff.mp member)⟩
  finished id found member := by
    obtain ⟨taken, free, quiet, stored⟩ := whole.finished id found member
    exact ⟨taken, fun stage among => free stage (same.mem_iff.mpr among),
      fun record is stage among => quiet record is stage (same.mem_iff.mpr among), stored⟩
  once := whole.once
  sound stage member := whole.sound stage (same.mem_iff.mpr member)
  apart := (same.pairwise_iff fun {_ _} => Compatible.symm).mp whole.apart

structure Unharmed (imports : ChunkedImport store) (solo : List Char → Prop) (s s' : Uploading π ε)
    (stage : UploadStage π) : Prop where
  uploads : ∀ id, s'.imports.uploads id = s.imports.uploads id ∨ s'.imports.uploads id = none
  wrote : ∀ id, stage.seals id ∨ stage.appends id ∧ solo id → s'.wrote id = s.wrote id
  appended : ∀ id, stage.seals id ∨ stage.appends id ∧ solo id → s'.appended id = s.appended id
  owns : ∀ id file, stage.appends id → s.imports.blobz.drive.Owns (imports.part id) file →
    s'.imports.blobz.drive.Owns (imports.part id) file
  handle : ∀ id, (s'.imports.uploads id).isSome →
    s'.imports.blobz.drive.handle (imports.part id) = s.imports.blobz.drive.handle (imports.part id)
  part : ∀ id, stage.seals id →
    s'.imports.blobz.drive.read (imports.part id) = s.imports.blobz.drive.read (imports.part id)
  place : ∀ blake3 bytes, s.imports.blobz.drive.read (store.canonical blake3) = some bytes →
    store.hash bytes = blake3 → s'.imports.blobz.drive.read (store.canonical blake3) = some bytes
  finished : ∀ entry ∈ s.finished, entry ∈ s'.finished

theorem Unharmed.isSome (kept : Unharmed imports solo s s' stage) (open' : (s'.imports.uploads id).isSome) :
    (s.imports.uploads id).isSome := by
  rcases kept.uploads id with same | gone
  · exact same ▸ open'
  · rw [gone] at open'
    cases open'

theorem Unharmed.none (kept : Unharmed imports solo s s' stage) (closed : s.imports.uploads id = none) : s'.imports.uploads id = none := by
  rcases kept.uploads id with same | gone
  · exact same.trans closed
  · exact gone

theorem Unharmed.settled (kept : Unharmed imports solo s s' stage) (about : stage.seals id ∨ stage.appends id) (settled : Settled solo s id) :
    Settled solo s' id := by
  intro alone
  have about' : stage.seals id ∨ stage.appends id ∧ solo id := about.imp_right (⟨·, alone⟩)
  rw [kept.appended id about', kept.wrote id about', settled alone]

theorem UploadStage.Sound.mono (sound : stage.Sound imports solo s)
    (kept : Unharmed imports solo s s' stage) : stage.Sound imports solo s' := by
  cases stage with
  | idle => trivial
  | resolved id path =>
    exact ⟨sound.1, fun open' => kept.settled (.inr rfl) (sound.2 (kept.isSome open'))⟩
  | opened id path file =>
    obtain ⟨named, owns, alive⟩ := sound
    refine ⟨named, kept.owns id file rfl owns, fun open' => ?_⟩
    obtain ⟨handle, settled⟩ := alive (kept.isSome open')
    exact ⟨(kept.handle id open').trans handle, kept.settled (.inr rfl) settled⟩
  | written id path data =>
    refine ⟨sound.1, fun open' alone => ?_⟩
    rw [kept.wrote id (.inr ⟨rfl, alone⟩), kept.appended id (.inr ⟨rfl, alone⟩)]
    exact sound.2 (kept.isSome open') alone
  | taken id path =>
    obtain ⟨named, closed, settled, content⟩ := sound
    refine ⟨named, kept.none closed, kept.settled (.inl rfl) settled, ?_⟩
    rw [kept.part id rfl, kept.wrote id (.inl rfl), content]
  | hashed id path blake3 =>
    obtain ⟨named, closed, settled, content, hashed⟩ := sound
    refine ⟨named, kept.none closed, kept.settled (.inl rfl) settled, ?_, ?_⟩
    · rw [kept.part id rfl, kept.wrote id (.inl rfl), content]
    · rw [kept.wrote id (.inl rfl), hashed]
  | copied id path blake3 =>
    obtain ⟨named, closed, settled, content, hashed⟩ := sound
    refine ⟨named, kept.none closed, kept.settled (.inl rfl) settled, ?_, ?_⟩
    · rw [kept.wrote id (.inl rfl)]
      exact kept.place blake3 _ content hashed.symm
    · rw [kept.wrote id (.inl rfl), hashed]
  | adding id blake3 =>
    obtain ⟨closed, settled, content, hashed⟩ := sound
    refine ⟨kept.none closed, kept.settled (.inl rfl) settled, ?_, ?_⟩
    · rw [kept.wrote id (.inl rfl)]
      exact kept.place blake3 _ content hashed.symm
    · rw [kept.wrote id (.inl rfl), hashed]
  | inserted id blake3 =>
    obtain ⟨closed, settled, hashed⟩ := sound
    refine ⟨kept.none closed, kept.settled (.inl rfl) settled, ?_⟩
    rw [kept.wrote id (.inl rfl), hashed]
  | duplicate id path =>
    obtain ⟨named, found, member⟩ := sound
    exact ⟨named, found, kept.finished _ member⟩
  | dropping id path => exact ⟨sound.1, kept.none sound.2⟩

theorem Compatible.shrink {other : UploadStage π} (compatible : Compatible solo own other)
    (held : ∀ id, own'.held = some id → own.held = some id)
    (seals : ∀ id, own'.seals id → own.seals id)
    (appends : ∀ id, own'.appends id → own.appends id) : Compatible solo own' other where
  held id takes := compatible.held id (held id takes)
  seals id sealing := compatible.seals id (seals id sealing)
  sealed id sealing appending := compatible.sealed id sealing (appends id appending)
  solo id alone appending := compatible.solo id alone (appends id appending)

theorem Integrity.compatible (whole : Integrity imports solo s (own :: others))
    {other : UploadStage π} (member : other ∈ others) : Compatible solo own other :=
  (List.pairwise_cons.mp whole.apart).1 other member

theorem Integrity.apart_shrink (whole : Integrity imports solo s (own :: others))
    (held : ∀ id, own'.held = some id → own.held = some id)
    (seals : ∀ id, own'.seals id → own.seals id)
    (appends : ∀ id, own'.appends id → own.appends id) :
    (own' :: others).Pairwise (Compatible solo) :=
  List.pairwise_cons.mpr ⟨fun _ member => (whole.compatible member).shrink held seals appends,
    (List.pairwise_cons.mp whole.apart).2⟩

theorem forall_replaced {holds : UploadStage π → Prop} (known : ∀ stage ∈ own :: others, holds stage)
    (new : holds own') : ∀ stage ∈ own' :: others, holds stage :=
  List.forall_mem_cons.mpr ⟨new, (List.forall_mem_cons.mp known).2⟩

/-- A finished upload stays finished when a call goes on that neither takes it nor appends to it. -/
theorem Finished.replace {id : List Char} {found : Option BlobRecord}
    (known : Finished store solo s (own :: others) id found)
    (taken : s'.imports.uploads id = none) (free : own'.held ≠ some id)
    (quiet : ∀ record, found = some record → ¬own'.appends id)
    (stored : ∀ record, found = some record →
      s'.imports.blobz.rows.get record.blake3 = some record ∧
        record.blake3 = store.hash (s'.wrote id) ∧ Settled solo s' id) :
    Finished store solo s' (own' :: others) id found :=
  ⟨taken, forall_replaced known.free free,
    fun record same => forall_replaced (known.quiet record same) (quiet record same), stored⟩

theorem Integrity.rows_kept (whole : Integrity imports solo s stages) {drive : Drive ε Bytes}
    (place : ∀ blake3 bytes, s.imports.blobz.drive.read (store.canonical blake3) = some bytes →
      store.hash bytes = blake3 → drive.read (store.canonical blake3) = some bytes)
    (elsewhere : ∀ entry, (∀ blake3, entry ≠ store.canonical blake3) →
      (∀ id, entry ≠ imports.part id) → drive.read entry = s.imports.blobz.drive.read entry) :
    ∀ row ∈ s.imports.blobz.rows, Placed store row ∧ store.Backed drive row ∧
      ∀ id, store.fileOf row ≠ imports.part id := by
  intro row present
  obtain ⟨placed, ⟨bytes, there, hashed⟩, apart⟩ := whole.rows row present
  refine ⟨placed, ⟨bytes, ?_, hashed⟩, apart⟩
  cases external : row.external with
  | true => exact (elsewhere _ (placed.2 external) apart).trans there
  | false =>
    have file : store.fileOf row = store.canonical row.blake3 :=
      SqliteBlobStore.fileOf_managed external (placed.1 external)
    rw [file] at there ⊢
    exact place _ _ there hashed

theorem Integrity.changeDrive (whole : Integrity imports solo s (own :: others))
    {drive : Drive ε Bytes} (id : List Char) (closed : s.imports.uploads id = none)
    (lone : ∀ other ∈ others, ¬other.seals id)
    (place : ∀ blake3 bytes, s.imports.blobz.drive.read (store.canonical blake3) = some bytes →
      store.hash bytes = blake3 → drive.read (store.canonical blake3) = some bytes)
    (elsewhere : ∀ entry, (∀ blake3, entry ≠ store.canonical blake3) → entry ≠ imports.part id →
      drive.read entry = s.imports.blobz.drive.read entry ∧
        drive.handle entry = s.imports.blobz.drive.handle entry)
    (owns : ∀ other ∈ others, ∀ id' file, other.appends id' →
      s.imports.blobz.drive.Owns (imports.part id') file → drive.Owns (imports.part id') file)
    (held : ∀ id, own'.held = some id → own.held = some id)
    (seals : ∀ id, own'.seals id → own.seals id) (idle : ∀ id, ¬own'.appends id)
    (idle' : ∀ id, ¬own.appends id)
    (sound : own'.Sound imports solo { s with imports := s.imports.withDrive drive }) :
    Integrity imports solo { s with imports := s.imports.withDrive drive } (own' :: others) := by
  have parts {id' : List Char} (differs : id' ≠ id) :
      drive.read (imports.part id') = s.imports.blobz.drive.read (imports.part id') ∧
        drive.handle (imports.part id') = s.imports.blobz.drive.handle (imports.part id') :=
    elsewhere _ (part_ne_canonical id') fun same => differs (imports.apart same)
  have session {id' : List Char} (open' : (s.imports.uploads id').isSome) : id' ≠ id := by
    rintro rfl
    rw [closed] at open'
    cases open'
  refine ⟨?_, ?_, ?_, whole.once, ?_, ?_⟩
  · exact whole.rows_kept place fun entry apart apart' => (elsewhere entry apart (apart' id)).1
  · intro id' path found
    obtain ⟨named, content, settled⟩ := whole.sessions id' path found
    refine ⟨named, ?_, fun quiet => settled (forall_replaced quiet (idle' id'))⟩
    exact (parts (session (Option.isSome_iff_exists.mpr ⟨path, found⟩))).1.trans content
  · intro id' found member
    have known := whole.finished id' found member
    exact known.replace known.taken
      (fun takes => known.free own List.mem_cons_self (held id' takes)) (fun _ _ => idle id')
      known.stored
  · refine List.forall_mem_cons.mpr ⟨sound, fun stage member => ?_⟩
    refine (whole.sound stage (List.mem_cons_of_mem _ member)).mono
      ⟨fun _ => .inl rfl, fun _ _ => rfl, fun _ _ => rfl, owns stage member, ?_, ?_, place,
        fun _ known => known⟩
    · exact fun id' open' => (parts (session open')).2
    · intro id' sealing
      refine (parts ?_).1
      rintro rfl
      exact lone stage member sealing
  · exact whole.apart_shrink held seals fun id' appending => (idle id' appending).elim

theorem Integrity.look (whole : Integrity imports solo s (own :: others))
    (sound : own'.Sound imports solo s)
    (compatible : ∀ other ∈ others, Compatible solo own' other)
    (settled : ∀ id, (s.imports.uploads id).isSome → own.appends id → ¬own'.appends id →
      Settled solo s id)
    (finished : ∀ id found, (id, found) ∈ s.finished → own'.held ≠ some id ∧
      ∀ record, found = some record → ¬own'.appends id) :
    Integrity imports solo s (own' :: others) where
  rows := whole.rows
  sessions id path found := by
    obtain ⟨named, content, settled'⟩ := whole.sessions id path found
    refine ⟨named, content, fun quiet => ?_⟩
    by_cases appending : own.appends id
    · exact settled id (Option.isSome_iff_exists.mpr ⟨path, found⟩) appending
        (quiet own' List.mem_cons_self)
    · exact settled' (forall_replaced quiet appending)
  finished id found member :=
    have known := whole.finished id found member
    known.replace known.taken (finished id found member).1 (finished id found member).2 known.stored
  once := whole.once
  sound := forall_replaced whole.sound sound
  apart := List.pairwise_cons.mpr ⟨compatible, (List.pairwise_cons.mp whole.apart).2⟩

theorem Integrity.proceed (whole : Integrity imports solo s (own :: others))
    (sound : own'.Sound imports solo s)
    (held : ∀ id, own'.held = some id → own.held = some id)
    (seals : ∀ id, own'.seals id → own.seals id) (appends : ∀ id, own'.appends id → own.appends id)
    (settled : ∀ id, (s.imports.uploads id).isSome → own.appends id → ¬own'.appends id →
      Settled solo s id) :
    Integrity imports solo s (own' :: others) := by
  refine whole.look sound
    (fun other member => (whole.compatible member).shrink held seals appends) settled ?_
  intro id found member
  have known := whole.finished id found member
  refine ⟨fun takes => known.free own List.mem_cons_self (held id takes), ?_⟩
  exact fun record same appending =>
    known.quiet record same own List.mem_cons_self (appends id appending)

/-- A call that ends, unless it was an append whose session is still there. -/
theorem Integrity.leave (whole : Integrity imports solo s (own :: others))
    (settled : ∀ id, (s.imports.uploads id).isSome → own.appends id → Settled solo s id) :
    Integrity imports solo s (.idle :: others) := by
  refine whole.proceed trivial ?_ ?_ ?_ fun id open' appending _ => settled id open' appending
  · exact fun _ takes => by cases takes
  · exact fun _ seals => seals.elim
  · exact fun _ appends => appends.elim

end Invariant

section Steps

variable {π ε : Type} [DecidableEq ε] {store : SqliteBlobStore π ε}
  {imports : ChunkedImport store} {solo : List Char → Prop} {s : Uploading π ε}
  {caller : ImportOp} {own own' : UploadStage π} {others : List (UploadStage π)}

/-- When a call may take its next step: an upload is finished while no append of it is under way,
and an append that comes alone starts while no other is. -/
def MayUpload (solo : List Char → Prop) (caller : ImportOp) (others : List (UploadStage π))
    {β : Type} : UploadCmd π ε β → Prop
  | .removeUpload id => (∃ info now, caller = .finish id info now) →
    ∀ stage ∈ others, ¬stage.appends id
  | .getUpload id => solo id → ∀ stage ∈ others, ¬stage.appends id
  | _ => True

theorem Integrity.getUpload (whole : Integrity imports solo s (.idle :: others)) (id : List Char)
    (may : MayUpload solo caller others (.getUpload id : UploadCmd π ε _)) :
    Integrity imports solo (Uploading.exec ⟨caller, .upload (.getUpload id)⟩ s).2
      (UploadStage.next store caller .idle (.upload (.getUpload id)) (s.imports.uploads id) ::
        others) := by
  simp only [UploadStage.next, UploadStage.nextUpload]
  cases found : s.imports.uploads id with
  | none => exact whole
  | some path =>
    obtain ⟨named, content, settled⟩ := whole.sessions id path found
    refine whole.look ⟨named, fun _ alone => ?_⟩ (fun other member => ?_)
      (fun _ _ appends => appends.elim) fun id' found' member => ?_
    · exact settled (List.forall_mem_cons.mpr ⟨fun appends => appends, may alone⟩) alone
    · have sound := whole.sound other (List.mem_cons_of_mem _ member)
      refine ⟨fun _ takes => (by cases takes), fun _ seals => seals.elim, ?_, ?_⟩
      · rintro id' sealing rfl
        have closed := sound.held (UploadStage.held_of_seals sealing)
        rw [found] at closed
        cases closed
      · rintro id' alone rfl
        exact may alone other member
    · refine ⟨fun takes => (by cases takes), fun record _ same => ?_⟩
      obtain rfl : id = id' := same
      have taken := (whole.finished _ _ member).taken
      rw [found] at taken
      cases taken

theorem Integrity.openAppend (whole : Integrity imports solo s (own :: others)) (entry : ε)
    (legal : own.legal store caller (.upload (.openAppend entry))) :
    Integrity imports solo (Uploading.exec ⟨caller, .upload (.openAppend entry)⟩ s).2
      (own.next store caller (.upload (.openAppend entry)) (s.imports.blobz.drive.handle entry) ::
        others) := by
  obtain ⟨id, path, rfl, rfl⟩ := legal
  obtain ⟨rfl, settled⟩ := whole.sound _ List.mem_cons_self
  simp only [UploadStage.next, UploadStage.nextUpload]
  cases opened : s.imports.blobz.drive.handle (store.place (imports.partPath id)) with
  | none =>
    refine whole.leave ?_
    rintro id' open' rfl
    exact settled open'
  | some file =>
    refine whole.proceed ⟨rfl, Drive.owns_of_handle opened, fun open' => ⟨opened, settled open'⟩⟩
      ?_ ?_ ?_ ?_
    · exact fun _ takes => by cases takes
    · exact fun _ seals => seals.elim
    · exact fun _ appends => appends
    · exact fun _ _ appends idle => absurd appends idle

theorem Integrity.writeAll (whole : Integrity imports solo s (own :: others)) (file : Nat)
    (data : Bytes) (legal : own.legal store caller (.upload (.writeAll file data))) :
    Integrity imports solo (Uploading.exec ⟨caller, .upload (.writeAll file data)⟩ s).2
      (own.next store caller (.upload (.writeAll file data)) () :: others) := by
  obtain ⟨id, path, rfl, rfl⟩ := legal
  obtain ⟨rfl, owns, alive⟩ := whole.sound _ List.mem_cons_self
  simp only [UploadStage.next, UploadStage.nextUpload]
  let s' := (Uploading.exec ⟨.append id data, .upload (.writeAll file data)⟩ s).2
  have elsewhere {entry : ε} (apart : entry ≠ imports.part id) :
      s'.imports.blobz.drive.read entry = s.imports.blobz.drive.read entry :=
    owns.read_modify _ apart
  have others' {id' : List Char} (differs : id' ≠ id) : s'.wrote id' = s.wrote id' :=
    Function.update_of_ne differs _ _
  have own' : s'.wrote id = s.wrote id ++ data := Function.update_self _ _ _
  refine ⟨?_, ?_, ?_, whole.once, ?_, ?_⟩
  · refine whole.rows_kept (fun blake3 bytes there _ => ?_) fun entry _ apart => elsewhere (apart id)
    exact (elsewhere (part_ne_canonical id blake3).symm).trans there
  · intro id' path' found
    obtain ⟨named, content, settled⟩ := whole.sessions id' path' found
    refine ⟨named, ?_, fun quiet alone => ?_⟩
    · by_cases same : id' = id
      · subst same
        have leads : s.imports.blobz.drive.dir (imports.part id') = some file :=
          (alive (Option.isSome_iff_exists.mpr ⟨path', found⟩)).1
        rw [own']
        refine (Drive.read_modify _ _ _ _).trans ?_
        rw [if_pos leads, content]
        rfl
      · rw [others' same]
        exact (elsewhere fun same' => same (imports.apart same')).trans content
    · by_cases same : id' = id
      · exact absurd same.symm (quiet _ List.mem_cons_self)
      · exact (settled (forall_replaced quiet fun appends => same (Eq.symm appends)) alone).trans
          (others' same).symm
  · intro id' found member
    have known := whole.finished id' found member
    have apart (record : BlobRecord) (same : found = some record) : id ≠ id' :=
      known.quiet record same _ List.mem_cons_self
    refine known.replace known.taken (fun takes => by cases takes) apart fun record same => ?_
    have differs := (apart record same).symm
    obtain ⟨row, hashed, settled⟩ := known.stored record same
    exact ⟨row, by rw [others' differs]; exact hashed,
      fun alone => (settled alone).trans (others' differs).symm⟩
  · refine List.forall_mem_cons.mpr ⟨⟨rfl, fun open' alone => ?_⟩, fun stage member => ?_⟩
    · rw [own', ← (alive open').2 alone]
      rfl
    · have about := (whole.compatible member).about rfl
      refine (whole.sound stage (List.mem_cons_of_mem _ member)).mono
        ⟨fun _ => .inl rfl, fun _ which => others' (about _ which), fun _ _ => rfl,
          fun _ _ _ owned => owned.modify file (· ++ data), fun _ _ => rfl, ?_, ?_,
          fun _ known => known⟩
      · exact fun id' sealing => elsewhere fun same => about _ (.inl sealing) (imports.apart same)
      · exact fun blake3 _ there _ =>
          (elsewhere (part_ne_canonical id blake3).symm).trans there
  · exact whole.apart_shrink (fun _ takes => by cases takes) (fun _ seals => seals.elim)
      fun _ appends => appends

theorem Integrity.metadata (whole : Integrity imports solo s (own :: others)) (entry : ε)
    (legal : own.legal store caller (.store (.metadata entry))) :
    Integrity imports solo (Uploading.exec ⟨caller, .store (.metadata entry)⟩ s).2
      (.idle :: others) := by
  obtain ⟨id, path, data, rfl, rfl, rfl⟩ := legal
  obtain ⟨rfl, wrote⟩ := whole.sound _ List.mem_cons_self
  cases there : s.imports.blobz.drive.read (store.place (imports.partPath id)) with
  | none =>
    have left := whole.leave (fun id' open' appends => by
      obtain rfl : id = id' := appends
      obtain ⟨path, found⟩ := Option.isSome_iff_exists.mp open'
      have content := (whole.sessions id path found).2.1
      rw [ChunkedImport.part, there] at content
      cases content)
    have became : (Uploading.exec ⟨.append id data,
        .store (.metadata (store.place (imports.partPath id)))⟩ s).2 = s := by
      simp only [Uploading.exec, Imports.exec, Blobz.exec, there, Option.map_none,
        Uploading.noteWrote, Uploading.noteAppended, Uploading.noteStoreAppended,
        Uploading.noteFinished, Uploading.noteStoreFinished]
    rw [became]
    exact left
  | some bytes =>
    let s' := (Uploading.exec ⟨.append id data, .store (.metadata (store.place
      (imports.partPath id)))⟩ s).2
    have appended : s'.appended = Uploading.extend s.appended id data := by
      simp only [s', Uploading.exec, Imports.exec, Blobz.exec, there, Option.map_some,
        Uploading.noteAppended, Uploading.noteStoreAppended]
    have others' {id' : List Char} (differs : id' ≠ id) : s'.appended id' = s.appended id' := by
      rw [appended]
      exact Function.update_of_ne differs _ _
    have own' : s'.appended id = s.appended id ++ data := by
      rw [appended]
      exact Function.update_self _ _ _
    refine ⟨whole.rows, ?_, ?_, whole.once, ?_, ?_⟩
    · intro id' path' found
      obtain ⟨named, content, settled⟩ := whole.sessions id' path' found
      refine ⟨named, content, fun quiet alone => ?_⟩
      by_cases same : id' = id
      · subst same
        exact own'.trans (wrote (Option.isSome_iff_exists.mpr ⟨path', found⟩) alone).symm
      · exact (others' same).trans
          (settled (forall_replaced quiet fun appends => same (Eq.symm appends)) alone)
    · intro id' found member
      have known := whole.finished id' found member
      refine known.replace known.taken (fun takes => by cases takes) (fun _ _ appends => appends)
        fun record same => ?_
      obtain ⟨row, hashed, settled⟩ := known.stored record same
      have differs : id' ≠ id := fun same' =>
        known.quiet record same _ List.mem_cons_self same'.symm
      exact ⟨row, hashed, fun alone => (others' differs).trans (settled alone)⟩
    · refine List.forall_mem_cons.mpr ⟨trivial, fun stage member => ?_⟩
      have about := (whole.compatible member).about rfl
      exact (whole.sound stage (List.mem_cons_of_mem _ member)).mono
        ⟨fun _ => .inl rfl, fun _ _ => rfl, fun _ which => others' (about _ which),
          fun _ _ _ owned => owned, fun _ _ => rfl, fun _ _ => rfl, fun _ _ there _ => there,
          fun _ known => known⟩
    · exact whole.apart_shrink (fun _ takes => by cases takes) (fun _ seals => seals.elim)
        fun _ appends => appends.elim

theorem Integrity.read (whole : Integrity imports solo s (own :: others)) (entry : ε)
    (legal : own.legal store caller (.store (.read entry))) :
    Integrity imports solo (Uploading.exec ⟨caller, .store (.read entry)⟩ s).2
      (own.next store caller (.store (.read entry)) (s.imports.blobz.drive.read entry) ::
        others) := by
  obtain ⟨id, path, rfl, rfl⟩ := legal
  obtain ⟨rfl, closed, settled, content⟩ := whole.sound _ List.mem_cons_self
  have there : s.imports.blobz.drive.read (store.place (imports.partPath id)) =
      some (s.wrote id) := content
  simp only [UploadStage.next, UploadStage.nextStore, there]
  refine whole.proceed ⟨rfl, closed, settled, content, rfl⟩ ?_ ?_ ?_ ?_
  · exact fun _ takes => takes
  · exact fun _ seals => seals
  · exact fun _ appends => appends.elim
  · exact fun _ _ appends _ => appends.elim

omit [DecidableEq ε] in
theorem Integrity.finish (whole : Integrity imports solo s (own :: others)) {id : List Char}
    {record : BlobRecord} (seals : own.seals id) (idle : ∀ id, ¬own.appends id)
    (stored : s.imports.blobz.rows.get record.blake3 = some record ∧
      record.blake3 = store.hash (s.wrote id) ∧ Settled solo s id)
    (sound : own'.Sound imports solo { s with finished := (id, some record) :: s.finished })
    (free : ∀ id, own'.held ≠ some id) (idle' : ∀ id, ¬own'.appends id) :
    Integrity imports solo { s with finished := (id, some record) :: s.finished }
      (own' :: others) := by
  have takes : own.held = some id := UploadStage.held_of_seals seals
  refine ⟨whole.rows, fun id' path found => ?_, fun id' found member => ?_, ?_, ?_, ?_⟩
  · obtain ⟨named, content, settled⟩ := whole.sessions id' path found
    exact ⟨named, content, fun quiet => settled (forall_replaced quiet (idle id'))⟩
  · rcases List.mem_cons.mp member with same | member
    · cases same
      refine ⟨(whole.sound own List.mem_cons_self).held takes, List.forall_mem_cons.mpr ⟨free id, ?_⟩,
        fun _ _ => List.forall_mem_cons.mpr ⟨idle' id, ?_⟩, fun record' same => ?_⟩
      · exact fun stage among => (whole.compatible among).held id takes
      · exact fun stage among => (whole.compatible among).seals id seals
      · cases same
        exact stored
    · have known := whole.finished id' found member
      exact known.replace known.taken (free id') (fun _ _ => idle' id') known.stored
  · refine List.nodup_cons.mpr ⟨fun member => ?_, whole.once⟩
    obtain ⟨⟨id', found⟩, known, rfl⟩ := List.mem_map.mp member
    exact (whole.finished _ found known).free own List.mem_cons_self takes
  · refine List.forall_mem_cons.mpr ⟨sound, fun stage member => ?_⟩
    exact (whole.sound stage (List.mem_cons_of_mem _ member)).mono
      ⟨fun _ => .inl rfl, fun _ _ => rfl, fun _ _ => rfl, fun _ _ _ owned => owned,
        fun _ _ => rfl, fun _ _ => rfl, fun _ _ there _ => there,
        fun _ known => List.mem_cons_of_mem _ known⟩
  · refine whole.apart_shrink (fun id' takes' => absurd takes' (free id')) ?_
      fun id' appending => (idle' id' appending).elim
    exact fun id' sealing => absurd (UploadStage.held_of_seals sealing) (free id')

theorem Integrity.getAny (whole : Integrity imports solo s (own :: others)) (blake3 : Digest)
    (legal : own.legal store caller (.store (.getAny blake3))) :
    Integrity imports solo (Uploading.exec ⟨caller, .store (.getAny blake3)⟩ s).2
      (own.next store caller (.store (.getAny blake3)) (s.imports.blobz.rows.get blake3) ::
        others) := by
  have sound := whole.sound own List.mem_cons_self
  obtain ⟨seals, closed, settled, hashed, idle⟩ : own.seals caller.id ∧
      s.imports.uploads caller.id = none ∧ Settled solo s caller.id ∧
      blake3 = store.hash (s.wrote caller.id) ∧ ∀ id, ¬own.appends id := by
    rcases legal with ⟨path, rfl⟩ | rfl
    · exact ⟨rfl, sound.2.1, sound.2.2.1, sound.2.2.2.2, fun _ appends => appends⟩
    · exact ⟨rfl, sound.1, sound.2.1, sound.2.2, fun _ appends => appends⟩
  cases found : s.imports.blobz.rows.get blake3 with
  | none =>
    have became : (Uploading.exec ⟨caller, .store (.getAny blake3)⟩ s).2 = s := by
      simp only [Uploading.exec, Imports.exec, Blobz.exec, found, Uploading.noteFinished,
        Uploading.noteStoreFinished, Uploading.noteWrote, Uploading.noteAppended,
        Uploading.noteStoreAppended]
    rw [became]
    rcases legal with ⟨path, rfl⟩ | rfl
    · exact whole
    · exact whole.leave fun _ _ appends => appends.elim
  | some record =>
    have named := ((Table.get_eq_some _ _ _).mp found).2
    have became : (Uploading.exec ⟨caller, .store (.getAny blake3)⟩ s).2 =
        { s with finished := (caller.id, some record) :: s.finished } := by
      simp only [Uploading.exec, Imports.exec, Blobz.exec, found, Uploading.noteFinished,
        Uploading.noteStoreFinished, Uploading.noteWrote, Uploading.noteAppended,
        Uploading.noteStoreAppended]
    rw [became]
    refine whole.finish seals idle ⟨?_, ?_, settled⟩ ?_ ?_ ?_
    · rw [named, found]
    · rw [named, hashed]
    · rcases legal with ⟨path, rfl⟩ | rfl
      · exact ⟨sound.1, some record, List.mem_cons_self⟩
      · trivial
    · rcases legal with ⟨path, rfl⟩ | rfl <;> exact fun _ takes => by cases takes
    · rcases legal with ⟨path, rfl⟩ | rfl <;> exact fun _ appends => appends.elim

theorem Integrity.rename (whole : Integrity imports solo s (own :: others)) (entry target : ε)
    (legal : own.legal store caller (.store (.rename entry target))) :
    Integrity imports solo (Uploading.exec ⟨caller, .store (.rename entry target)⟩ s).2
      (own.next store caller (.store (.rename entry target))
        (Blobz.exec (.rename entry target) s.imports.blobz).1 :: others) := by
  obtain ⟨id, path, blake3, rfl, rfl, rfl⟩ := legal
  obtain ⟨rfl, closed, settled, content, hashed⟩ := whole.sound _ List.mem_cons_self
  cases done : s.imports.blobz.drive.rename (imports.part id) (store.canonical blake3) with
  | none =>
    have refused : Blobz.exec (.rename (store.place (imports.partPath id))
        (store.canonical blake3)) s.imports.blobz = (false, s.imports.blobz) :=
      congrArg s.imports.blobz.replaceDrive done
    have became : (Uploading.exec ⟨caller, .store (.rename (store.place (imports.partPath id))
        (store.canonical blake3))⟩ s).2 = s := by
      simp only [Uploading.exec, Imports.exec, refused, Uploading.noteWrote,
        Uploading.noteAppended, Uploading.noteStoreAppended, Uploading.noteFinished,
        Uploading.noteStoreFinished]
    rw [became, refused]
    exact whole
  | some drive =>
    have moved : Blobz.exec (.rename (store.place (imports.partPath id))
        (store.canonical blake3)) s.imports.blobz = (true, { s.imports.blobz with drive }) :=
      congrArg s.imports.blobz.replaceDrive done
    have became : (Uploading.exec ⟨caller, .store (.rename (store.place (imports.partPath id))
        (store.canonical blake3))⟩ s).2 = { s with imports := s.imports.withDrive drive } := by
      simp only [Uploading.exec, Imports.exec, moved, Uploading.noteWrote,
        Uploading.noteAppended, Uploading.noteStoreAppended, Uploading.noteFinished,
        Uploading.noteStoreFinished, Imports.withDrive]
    rw [became, moved]
    have compatible := (List.pairwise_cons.mp whole.apart).1
    have there : drive.read (store.canonical blake3) = some (s.wrote id) := by
      rw [Drive.read_rename done, if_pos rfl, content]
    refine whole.changeDrive id closed (fun other member sealing => ?_) ?_ ?_ ?_ ?_ ?_ ?_ ?_ ?_
    · exact (compatible other member).held id rfl (UploadStage.held_of_seals sealing)
    · intro other bytes known hash
      by_cases same : other = blake3
      · subst same
        have one : bytes = s.wrote id := store.collisionFree (hash.trans hashed)
        rw [there, one]
      · have apart : store.canonical other ≠ store.canonical blake3 :=
          fun same' => same (store.apart same')
        rw [Drive.read_rename done, if_neg apart, if_neg (part_ne_canonical id other).symm]
        exact known
    · intro other apart apart'
      refine ⟨?_, Drive.handle_rename_of_ne done apart' (apart blake3)⟩
      rw [Drive.read_rename done, if_neg (apart blake3), if_neg apart']
    · intro other member id' file appends owned
      refine owned.rename done fun same => ?_
      obtain rfl := imports.apart same
      exact (compatible other member).seals id rfl appends
    · exact fun _ takes => takes
    · exact fun _ seals => seals
    · exact fun _ appends => appends
    · exact fun _ appends => appends
    · exact ⟨closed, settled, there, hashed⟩

theorem Integrity.copy (whole : Integrity imports solo s (own :: others)) (entry target : ε)
    (legal : own.legal store caller (.store (.copy entry target))) :
    Integrity imports solo (Uploading.exec ⟨caller, .store (.copy entry target)⟩ s).2
      (own.next store caller (.store (.copy entry target))
        (Blobz.exec (.copy entry target) s.imports.blobz).1 :: others) := by
  obtain ⟨id, path, blake3, rfl, rfl, rfl⟩ := legal
  obtain ⟨rfl, closed, settled, content, hashed⟩ := whole.sound _ List.mem_cons_self
  let drive := s.imports.blobz.drive.write (store.canonical blake3) (s.wrote id)
  have copied : s.imports.blobz.drive.copy (imports.part id) (store.canonical blake3) =
      some drive := by
    rw [Drive.copy, content]
    rfl
  have moved : Blobz.exec (.copy (store.place (imports.partPath id))
      (store.canonical blake3)) s.imports.blobz = (true, { s.imports.blobz with drive }) :=
    congrArg s.imports.blobz.replaceDrive copied
  have became : (Uploading.exec ⟨caller, .store (.copy (store.place (imports.partPath id))
      (store.canonical blake3))⟩ s).2 = { s with imports := s.imports.withDrive drive } := by
    simp only [Uploading.exec, Imports.exec, moved, Uploading.noteWrote,
      Uploading.noteAppended, Uploading.noteStoreAppended, Uploading.noteFinished,
      Uploading.noteStoreFinished, Imports.withDrive]
  rw [became, moved]
  have there : drive.read (store.canonical blake3) = some (s.wrote id) := by
    rw [Drive.read_write, if_pos rfl]
  refine whole.changeDrive id closed (fun other member sealing => ?_) ?_ ?_ ?_ ?_ ?_ ?_ ?_ ?_
  · exact (whole.compatible member).held id rfl (UploadStage.held_of_seals sealing)
  · intro other bytes known hash
    by_cases same : other = blake3
    · subst same
      have one : bytes = s.wrote id := store.collisionFree (hash.trans hashed)
      rw [there, one]
    · have apart : store.canonical other ≠ store.canonical blake3 :=
        fun same' => same (store.apart same')
      rw [Drive.read_write, if_neg apart]
      exact known
  · intro other apart _
    refine ⟨?_, Drive.handle_write_of_ne _ _ (apart blake3)⟩
    rw [Drive.read_write, if_neg (apart blake3)]
  · exact fun other member id' file _ owned => owned.write _ _
  · exact fun _ takes => takes
  · exact fun _ seals => seals
  · exact fun _ appends => appends
  · exact fun _ appends => appends
  · exact ⟨rfl, closed, settled, there, hashed⟩

theorem Integrity.removeFile (whole : Integrity imports solo s (own :: others)) (entry : ε)
    (legal : own.legal store caller (.store (.removeFile entry))) :
    Integrity imports solo (Uploading.exec ⟨caller, .store (.removeFile entry)⟩ s).2
      (own.next store caller (.store (.removeFile entry))
        (Blobz.exec (.removeFile entry) s.imports.blobz).1 :: others) := by
  obtain ⟨id, path, rfl, stages⟩ := legal
  have sound := whole.sound own List.mem_cons_self
  obtain ⟨rfl, closed, lone⟩ : path = imports.partPath id ∧ s.imports.uploads id = none ∧
      ∀ other ∈ others, ¬other.seals id := by
    rcases stages with rfl | rfl | ⟨blake3, rfl⟩
    · obtain ⟨named, found, member⟩ := sound
      obtain ⟨taken, free, -, -⟩ := whole.finished id found member
      exact ⟨named, taken, fun other among sealing =>
        free other (List.mem_cons_of_mem _ among) (UploadStage.held_of_seals sealing)⟩
    · exact ⟨sound.1, sound.2, fun other member sealing =>
        (whole.compatible member).held id rfl (UploadStage.held_of_seals sealing)⟩
    · exact ⟨sound.1, sound.2.1, fun other member sealing =>
        (whole.compatible member).held id rfl (UploadStage.held_of_seals sealing)⟩
  let drive := s.imports.blobz.drive.remove (imports.part id)
  have changed {own' : UploadStage π} (held : ∀ id, own'.held = some id → own.held = some id)
      (seals : ∀ id, own'.seals id → own.seals id) (idle : ∀ id, ¬own'.appends id)
      (idle' : ∀ id, ¬own.appends id)
      (sound : own'.Sound imports solo { s with imports := s.imports.withDrive drive }) :
      Integrity imports solo { s with imports := s.imports.withDrive drive } (own' :: others) := by
    refine whole.changeDrive id closed lone ?_ ?_ ?_ held seals idle idle' sound
    · intro blake3 bytes known _
      rw [Drive.read_remove, if_neg (part_ne_canonical id blake3).symm]
      exact known
    · intro other _ apart
      refine ⟨?_, Drive.handle_remove_of_ne _ apart⟩
      rw [Drive.read_remove, if_neg apart]
    · exact fun _ _ _ _ _ owned => owned.remove _
  rcases stages with rfl | rfl | ⟨blake3, rfl⟩
  · refine changed ?_ ?_ ?_ ?_ trivial
    · exact fun _ takes => by cases takes
    · exact fun _ seals => seals.elim
    · exact fun _ appends => appends
    · exact fun _ appends => appends
  · refine changed ?_ ?_ ?_ ?_ trivial
    · exact fun _ takes => by cases takes
    · exact fun _ seals => seals.elim
    · exact fun _ appends => appends
    · exact fun _ appends => appends
  · obtain ⟨-, -, settled, content, hashed⟩ := sound
    refine changed ?_ ?_ ?_ ?_ ⟨closed, settled, ?_, hashed⟩
    · exact fun _ takes => takes
    · exact fun _ seals => seals
    · exact fun _ appends => appends
    · exact fun _ appends => appends
    · refine (Drive.read_remove _ _ _).trans ?_
      rw [if_neg (part_ne_canonical id blake3).symm]
      exact content

theorem Integrity.insertOrIgnore (whole : Integrity imports solo s (own :: others))
    (row : BlobRecord) (legal : own.legal store caller (.store (.insertOrIgnore row))) :
    Integrity imports solo (Uploading.exec ⟨caller, .store (.insertOrIgnore row)⟩ s).2
      (own.next store caller (.store (.insertOrIgnore row)) () :: others) := by
  obtain ⟨id, rfl, external, path⟩ := legal
  obtain ⟨closed, settled, content, hashed⟩ := whole.sound _ List.mem_cons_self
  have moved : Integrity imports solo s (.inserted id row.blake3 :: others) := by
    refine whole.proceed ⟨closed, settled, hashed⟩ ?_ ?_ ?_ ?_
    · exact fun _ takes => takes
    · exact fun _ seals => seals
    · exact fun _ appends => appends.elim
    · exact fun _ _ appends _ => appends.elim
  cases added : s.imports.blobz.rows.insert row with
  | none =>
    have became : (Uploading.exec ⟨caller, .store (.insertOrIgnore row)⟩ s).2 = s := by
      simp only [Uploading.exec, Imports.exec, Blobz.exec, added, Option.getD_none,
        Uploading.noteWrote, Uploading.noteAppended, Uploading.noteStoreAppended,
        Uploading.noteFinished, Uploading.noteStoreFinished]
    rw [became]
    exact moved
  | some rows =>
    have became : (Uploading.exec ⟨caller, .store (.insertOrIgnore row)⟩ s).2 =
        { s with imports := { s.imports with blobz := { s.imports.blobz with rows } } } := by
      simp only [Uploading.exec, Imports.exec, Blobz.exec, added, Option.getD_some,
        Uploading.noteWrote, Uploading.noteAppended, Uploading.noteStoreAppended,
        Uploading.noteFinished, Uploading.noteStoreFinished]
    rw [became]
    have file : store.fileOf row = store.canonical row.blake3 :=
      SqliteBlobStore.fileOf_managed external path
    refine ⟨fun old present => ?_, moved.sessions, fun id' found member => ?_, moved.once,
      fun stage member => ?_, moved.apart⟩
    · rcases (Table.insert_eq_some _ _ _ added _).mp present with known | rfl
      · exact moved.rows old known
      · refine ⟨⟨fun _ => path, fun outside => ?_⟩, ⟨_, file ▸ content, hashed.symm⟩,
          fun id' => ?_⟩
        · rw [external] at outside
          cases outside
        · rw [file]
          exact (part_ne_canonical id' _).symm
    · obtain ⟨taken, free, quiet, stored⟩ := moved.finished id' found member
      refine ⟨taken, free, quiet, fun record same => ?_⟩
      obtain ⟨known, hashed', settled'⟩ := stored record same
      refine ⟨?_, hashed', settled'⟩
      have present := (Table.get_eq_some _ _ _).mp known
      exact (Table.get_eq_some _ _ _).mpr
        ⟨(Table.insert_eq_some _ _ _ added _).mpr (.inl present.1), present.2⟩
    · exact (moved.sound stage member).mono ⟨fun _ => .inl rfl, fun _ _ => rfl, fun _ _ => rfl,
        fun _ _ _ owned => owned, fun _ _ => rfl, fun _ _ => rfl, fun _ _ there _ => there,
        fun _ known => known⟩

omit [DecidableEq ε] in
theorem Integrity.closeSession (whole : Integrity imports solo s (.idle :: others))
    {id : List Char} {path : π} (found : s.imports.uploads id = some path)
    {finished : List (List Char × Option BlobRecord)}
    (grows : ∀ entry ∈ s.finished, entry ∈ finished)
    (finishes : ∀ entry ∈ finished, entry ∈ s.finished ∨ entry = (id, none) ∧ own' = .idle)
    (once : (finished.map Prod.fst).Nodup)
    (held : ∀ other, own'.held = some other → other = id)
    (idle : ∀ other, ¬own'.appends other)
    (quiet : ∀ other, own'.seals other → ∀ stage ∈ others, ¬stage.appends other)
    (sound : own'.Sound imports solo { s with
      imports := { s.imports with uploads := Function.update s.imports.uploads id none }
      finished }) :
    Integrity imports solo { s with
      imports := { s.imports with uploads := Function.update s.imports.uploads id none }
      finished } (own' :: others) := by
  have closes (other : List Char) : Function.update s.imports.uploads id none other =
      s.imports.uploads other ∨ Function.update s.imports.uploads id none other = none := by
    by_cases same : other = id
    · subst same
      exact .inr (Function.update_self _ _ _)
    · exact .inl (Function.update_of_ne same _ _)
  have free : ∀ stage ∈ others, stage.held ≠ some id := by
    intro stage member takes
    have closed := (whole.sound stage (List.mem_cons_of_mem _ member)).held takes
    rw [found] at closed
    cases closed
  refine ⟨whole.rows, fun other path' found' => ?_, fun other record member => ?_, once, ?_, ?_⟩
  · have differs : other ≠ id := by
      rintro rfl
      have gone : Function.update s.imports.uploads other none other = none :=
        Function.update_self _ _ _
      cases gone.symm.trans found'
    have known : s.imports.uploads other = some path' :=
      (Function.update_of_ne differs _ _).symm.trans found'
    obtain ⟨named, content, settled⟩ := whole.sessions other path' known
    exact ⟨named, content, fun quiet' => settled (forall_replaced quiet' fun appends => appends)⟩
  · rcases finishes _ member with known | ⟨same, rfl⟩
    · have known := whole.finished other record known
      refine known.replace ((closes other).elim (fun same => same.trans known.taken) fun gone => gone)
        (fun takes => ?_) (fun _ _ => idle other) known.stored
      have taken := known.taken
      rw [held other takes, found] at taken
      cases taken
    · cases same
      exact ⟨Function.update_self _ _ _,
        List.forall_mem_cons.mpr ⟨fun takes => (by cases takes), free⟩, fun _ same => (by cases same),
        fun _ same => (by cases same)⟩
  · refine List.forall_mem_cons.mpr ⟨sound, fun stage member => ?_⟩
    exact (whole.sound stage (List.mem_cons_of_mem _ member)).mono ⟨closes, fun _ _ => rfl,
      fun _ _ => rfl, fun _ _ _ owned => owned, fun _ _ => rfl, fun _ _ => rfl,
      fun _ _ there _ => there, grows⟩
  · refine List.pairwise_cons.mpr ⟨fun other member => ⟨fun id' takes => ?_,
      fun id' sealing => quiet id' sealing other member, fun id' _ => idle id',
      fun id' _ appends => (idle id' appends).elim⟩, (List.pairwise_cons.mp whole.apart).2⟩
    rw [held id' takes]
    exact free other member

theorem Integrity.removeUpload (whole : Integrity imports solo s (own :: others)) (id : List Char)
    (legal : own.legal store caller (.upload (.removeUpload id)))
    (may : MayUpload solo caller others (.removeUpload id : UploadCmd π ε _)) :
    Integrity imports solo (Uploading.exec ⟨caller, .upload (.removeUpload id)⟩ s).2
      (own.next store caller (.upload (.removeUpload id)) (s.imports.uploads id) :: others) := by
  obtain ⟨rfl, rfl⟩ := legal
  cases found : s.imports.uploads caller.id with
  | none =>
    have gone : Function.update s.imports.uploads caller.id none = s.imports.uploads := by
      rw [← found]
      exact Function.update_eq_self _ _
    have became : (Uploading.exec ⟨caller, .upload (.removeUpload caller.id)⟩ s).2 = s := by
      cases caller <;> simp only [Uploading.exec, Imports.exec, Imports.execUpload, gone, found,
        Uploading.noteWrote, Uploading.noteUploadWrote, Uploading.noteAppended,
        Uploading.noteFinished, Uploading.noteUploadFinished]
    rw [became]
    cases caller <;> exact whole
  | some path =>
    obtain ⟨named, content, settled⟩ := whole.sessions _ path found
    have closed : Function.update s.imports.uploads caller.id none caller.id = none :=
      Function.update_self _ _ _
    have kept (own' : UploadStage π) : ∀ entry ∈ s.finished, entry ∈ s.finished ∨
        entry = (caller.id, none) ∧ own' = .idle := fun _ known => .inl known
    cases caller with
    | append id data =>
      refine whole.closeSession found (fun _ known => known) (kept _) whole.once ?_ ?_ ?_ trivial
      · exact fun _ takes => by cases takes
      · exact fun _ appends => appends
      · exact fun _ seals => seals.elim
    | finish id info now =>
      have quiet : ∀ stage ∈ others, ¬stage.appends id := may ⟨info, now, rfl⟩
      refine whole.closeSession found (fun _ known => known) (kept _) whole.once ?_ ?_ ?_ ?_
      · exact fun _ takes => (Option.some.inj takes).symm
      · exact fun _ appends => appends
      · rintro _ rfl
        exact quiet
      · exact ⟨named, closed,
          settled (List.forall_mem_cons.mpr ⟨fun appends => appends, quiet⟩), content⟩
    | finishToPath id =>
      have became : (Uploading.exec ⟨.finishToPath id, .upload (.removeUpload id)⟩ s).2 = { s with
          imports := { s.imports with uploads := Function.update s.imports.uploads id none }
          finished := (id, none) :: s.finished } := by
        have found' : s.imports.uploads id = some path := found
        simp only [Uploading.exec, Imports.exec, Imports.execUpload, found', Uploading.noteWrote,
          Uploading.noteUploadWrote, Uploading.noteAppended, Uploading.noteFinished,
          Uploading.noteUploadFinished]
      simp only [ImportOp.id, became]
      refine whole.closeSession found (fun _ known => List.mem_cons_of_mem _ known) ?_ ?_ ?_ ?_ ?_
        trivial
      · intro entry member
        rcases List.mem_cons.mp member with same | known
        · exact .inr ⟨same, rfl⟩
        · exact .inl known
      · refine List.nodup_cons.mpr ⟨fun member => ?_, whole.once⟩
        obtain ⟨⟨other, record⟩, known, rfl⟩ := List.mem_map.mp member
        have taken := (whole.finished _ record known).taken
        cases found.symm.trans taken
      · exact fun _ takes => by cases takes
      · exact fun _ appends => appends
      · exact fun _ seals => seals.elim
    | abort id =>
      refine whole.closeSession found (fun _ known => known) (kept _) whole.once ?_ ?_ ?_ ?_
      · exact fun _ takes => (Option.some.inj takes).symm
      · exact fun _ appends => appends
      · exact fun _ seals => seals.elim
      · exact ⟨named, closed⟩

theorem Integrity.step (whole : Integrity imports solo s (own :: others)) {β : Type}
    {command : ImportCmd π ε β} (legal : own.legal store caller command)
    (may : ∀ upload, command = .upload upload → MayUpload solo caller others upload) :
    Integrity imports solo (Uploading.exec ⟨caller, command⟩ s).2
      (own.next store caller command (Uploading.exec ⟨caller, command⟩ s).1 :: others) := by
  cases command with
  | upload command =>
    have may := may command rfl
    cases command with
    | fetchAdd => exact legal.elim
    | create entry => exact legal.elim
    | insertUpload id path => exact legal.elim
    | getUpload id =>
      obtain ⟨rfl, -⟩ := legal
      exact whole.getUpload id may
    | removeUpload id => exact whole.removeUpload id legal may
    | openAppend entry => exact whole.openAppend entry legal
    | writeAll file data => exact whole.writeAll file data legal
  | store command =>
    cases command with
    | getAny blake3 => exact whole.getAny blake3 legal
    | insertOrIgnore row => exact whole.insertOrIgnore row legal
    | updateSize blake3 size => exact legal.elim
    | updatePath blake3 path => exact legal.elim
    | softDelete blake3 now actor => exact legal.elim
    | restore blake3 => exact legal.elim
    | selectSoftDeleted blake3 => exact legal.elim
    | selectAllSoftDeleted => exact legal.elim
    | deleteRow blake3 => exact legal.elim
    | read entry => exact whole.read entry legal
    | metadata entry => exact whole.metadata entry legal
    | write entry content => exact legal.elim
    | removeFile entry => exact whole.removeFile entry legal
    | rename entry target => exact whole.rename entry target legal
    | copy entry target => exact whole.copy entry target legal

end Steps

section Runs

variable {π ε : Type} [DecidableEq ε] {store : SqliteBlobStore π ε}

end Runs

end Tomb.Reliquary
