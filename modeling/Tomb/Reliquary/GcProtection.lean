import Tomb.Reliquary.Node

/-! What the garbage collection spares: concurrent refreshes, callbacks, guards, snatches and calls
of the blob store, and what the live set has when a callback lets the collection proceed. -/
namespace Tomb.Reliquary
open Tomb.Lib

inductive NodeOp (π H : Type) where
  | refresh
  | protectCb (live : Finset H)
  | inFlightGuard (hash : H)
  | snatch (descriptor : BlobDescriptor) (outside : Surroundings) (now : Int)
  | blob (op : BlobOp π)

inductive NodeAnswer (H : Type) where
  | done
  | outcome (outcome : ProtectOutcome H)

structure NodeCall (π ε H β : Type) where
  caller : NodeOp π H
  command : NodeCmd ε H β

namespace StorageNode

variable {π ε H : Type} [DecidableEq ε] [DecidableEq H]

instance : Machine (NodeCmd ε H) (StorageNode ε H) := ⟨exec⟩

instance : Machine (NodeCall π ε H) (StorageNode ε H) := ⟨fun call => exec call.command⟩

@[simp] theorem machine_exec {β : Type} (call : NodeCall π ε H β) (s : StorageNode ε H) :
    Machine.exec call s = exec call.command s := rfl

end StorageNode

section Calls

variable {π ε H : Type} [DecidableEq H] (store : SqliteBlobStore π ε)
  (hashes : Hashes H)

def NodeOp.prog : NodeOp π H → NodeProg ε H (NodeAnswer H)
  | .refresh => do
    StorageNode.refresh hashes
    .ret .done
  | .protectCb live => do return .outcome (← StorageNode.protectCb live)
  | .inFlightGuard hash => do
    StorageNode.guarded hash (.ret ())
    .ret .done
  | .snatch descriptor outside now => do
    StorageNode.snatchDescriptor store hashes descriptor outside now
    .ret .done
  | .blob op => do
    let _ ← (((op.prog store).mapError SnatchError.ingest).embed .blobz : NodeProg ε H BlobAnswer)
    .ret .done

def NodeOp.call (op : NodeOp π H) : Prog (NodeCall π ε H) SnatchError (NodeAnswer H) :=
  (op.prog store hashes).embed fun command => ⟨op, command⟩

end Calls

/-- How far a snatch has come. From `downloaded` to `registering` it has the bytes and not yet the
row. -/
inductive Progress (H : Type) where
  | before
  | presence
  | missing
  | downloaded (hash : H)
  | verified (hash : H)
  | pending (hash : H)
  | registering (hash : H)
  | ended

namespace Progress

variable {ε H : Type}

def owes (hash : H) : Progress H → Prop
  | .downloaded other => other = hash
  | .verified other => other = hash
  | .pending other => other = hash
  | .registering other => other = hash
  | _ => False

def exposed (hash : H) : Progress H → Prop
  | .pending other => other = hash
  | .registering other => other = hash
  | _ => False

def ready (hashes : Hashes H) (descriptor : BlobDescriptor) (outside : Surroundings)
    (size : Option Nat) : Option H :=
  if looksComplete (size.getD 0) descriptor.size ∧ outside.ensure = .ok () then
    descriptor.blake3.bind fun blake3 => (hashes.parse blake3).toOption
  else none

def nextBlobz (hashes : Hashes H) (descriptor : BlobDescriptor) (outside : Surroundings)
    (progress : Progress H) {β : Type} : BlobCmd ε β → β → Progress H
  | .getAny _, found =>
    match progress, found with
    | .before, none => .missing
    | .before, some _ => .presence
    | .pending hash, none => .registering hash
    | .pending _, some _ => .ended
    | progress, _ => progress
  | .metadata _, size =>
    match progress with
    | .presence => .missing
    | .missing =>
      match ready hashes descriptor outside size with
      | some hash => .pending hash
      | none => .missing
    | .downloaded hash =>
      if looksComplete (size.getD 0) descriptor.size then .verified hash else .ended
    | .registering hash => if size.isSome then .registering hash else .ended
    | progress => progress
  | .insertOrIgnore _, _ => .ended
  | _, _ => progress

end Progress

/-- What a call holds: its guard, the hashes that it has listed or read, and how far it is. -/
structure NodeStage (H : Type) where
  guard : Option H
  snapshot : Option (Snapshot H)
  progress : Progress H

namespace NodeStage

variable {π ε H : Type} [DecidableEq H] (hashes : Hashes H)

def start : NodeStage H := ⟨none, none, .before⟩

def nextStorage (stage : NodeStage H) {β : Type} : StorageCmd ε H β → β → NodeStage H
  | .listAllIrohHashes, listing =>
    { stage with
      snapshot := some ⟨StorageNode.parsed hashes listing.hexHashes, listing.additions⟩ }
  | .readProtected, found => { stage with snapshot := found }
  | .insertInFlight hash, _ => { stage with guard := some hash }
  | .removeInFlight _, _ =>
    { stage with
      guard := none
      progress := match stage.progress with
        | .verified hash => .pending hash
        | _ => .ended }
  | .download hash, _ => { stage with progress := .downloaded hash }
  | .has hash, found => { stage with progress := if found then .downloaded hash else .ended }
  | _, _ => stage

def nextBlobz (caller : NodeOp π H) (stage : NodeStage H) {β : Type} (command : BlobCmd ε β)
    (answer : β) : NodeStage H :=
  match caller with
  | .snatch descriptor outside _ =>
    { stage with progress := stage.progress.nextBlobz hashes descriptor outside command answer }
  | _ => stage

def next (caller : NodeOp π H) (stage : NodeStage H) {β : Type} : NodeCmd ε H β → β → NodeStage H
  | .blobz command, answer => stage.nextBlobz hashes caller command answer
  | .storage command, answer => stage.nextStorage hashes command answer

def legalStorage (stage : NodeStage H) {β : Type} : StorageCmd ε H β → Prop
  | .writeProtected snapshot => stage.snapshot = some snapshot
  | .extendInFlight live => ∃ snapshot, stage.snapshot = some snapshot ∧ snapshot.hashes ⊆ live
  | .insertInFlight _ => stage.guard = none
  | .removeInFlight hash => stage.guard = some hash
  | .download hash => stage.guard = some hash
  | .has hash => stage.guard = some hash
  | _ => True

def legal (stage : NodeStage H) {β : Type} : NodeCmd ε H β → Prop
  | .blobz _ => True
  | .storage command => stage.legalStorage command

end NodeStage

def nodeCallProtocol {π H : Type} [DecidableEq H] (ε : Type) (hashes : Hashes H)
    (caller : NodeOp π H) : Protocol (NodeCmd ε H) (NodeStage H) where
  start := .start
  next stage _ command answer := stage.next hashes caller command answer
  legal stage _ command := stage.legal command
  final _ _ := True

def nodePoolProtocol {H : Type} [DecidableEq H] (π ε : Type) (hashes : Hashes H) :
    Protocol (NodeCall π ε H) (NodeStage H) where
  start := .start
  next stage _ call answer := stage.next hashes call.caller call.command answer
  legal stage _ call := stage.legal call.command
  final _ _ := True

section Follows

variable {π ε H : Type} [DecidableEq H] {store : SqliteBlobStore π ε}
  {hashes : Hashes H} {caller : NodeOp π H} {α : Type}

theorem nodePoolProtocol_embed (p : NodeProg ε H α) (stage : NodeStage H)
    (post : NodeStage H → Except SnatchError α → Prop) :
    (nodePoolProtocol π ε hashes).Follows (p.embed fun command => ⟨caller, command⟩) stage post ↔
      (nodeCallProtocol ε hashes caller).Follows p stage post := by
  induction p generalizing stage with
  | ret value => rfl
  | fail error => rfl
  | call command next ih => exact and_congr_right fun _ => forall_congr' fun answer => ih answer _

/-- The commands of a call that leave its guard and the protected set alone. -/
def StorageCmd.Plain (guard : Option H) {β : Type} : StorageCmd ε H β → Prop
  | .download hash => guard = some hash
  | .has hash => guard = some hash
  | .tryExists _ => True
  | .persistNoclobber _ _ => True
  | _ => False

def NodeCmd.Plain (guard : Option H) {β : Type} : NodeCmd ε H β → Prop
  | .blobz _ => True
  | .storage command => command.Plain guard

omit [DecidableEq H] in
theorem plain_bind {guard : Option H} {β : Type} {command : NodeCmd ε H β}
    {later : β → NodeProg ε H α} (plain : command.Plain guard)
    (rest : ∀ answer, (later answer).Within (NodeCmd.Plain guard)) :
    (Prog.issue command >>= later).Within (NodeCmd.Plain guard) := ⟨plain, rest⟩

variable {stage : NodeStage H}

theorem plain_follows {p : NodeProg ε H α} (plain : p.Within (NodeCmd.Plain stage.guard)) :
    (nodeCallProtocol ε hashes caller).Follows p stage
      fun later _ => later.guard = stage.guard := by
  refine Protocol.follows_of_kept plain (fun stage' command kept plain => ?_) rfl
  cases command with
  | blobz command =>
    refine ⟨trivial, fun answer => ?_⟩
    cases caller <;> exact kept
  | storage command =>
    cases command with
    | download hash => exact ⟨kept.trans plain, fun _ => kept⟩
    | has hash => exact ⟨kept.trans plain, fun _ => kept⟩
    | tryExists entry => exact ⟨trivial, fun _ => kept⟩
    | persistNoclobber entry content => exact ⟨trivial, fun _ => kept⟩
    | listAllIrohHashes => exact plain.elim
    | writeProtected snapshot => exact plain.elim
    | readProtected => exact plain.elim
    | extendInFlight live => exact plain.elim
    | insertInFlight hash => exact plain.elim
    | removeInFlight hash => exact plain.elim

omit [DecidableEq H] in
theorem embed_plain {δ : Type} (guard : Option H) (p : Prog (BlobCmd ε) δ α) :
    (p.embed .blobz : Prog (NodeCmd ε H) δ α).Within (NodeCmd.Plain guard) :=
  Prog.within_embed (Prog.within_of_forall p fun _ => trivial)

omit [DecidableEq H] in
theorem failedBy_plain (guard : Option H) (context : String) (value : Except String α) :
    (StorageNode.failedBy context value : NodeProg ε H α).Within (NodeCmd.Plain guard) := by
  cases value <;> trivial

omit [DecidableEq H] in
theorem exportTryReference_plain (guard : Option H) (hash : H) (outside : Surroundings) :
    (StorageNode.exportTryReference store hashes hash outside).Within (NodeCmd.Plain guard) := by
  unfold StorageNode.exportTryReference
  refine plain_bind trivial fun present => ?_
  cases present with
  | true =>
    simp only [if_true]
    refine plain_bind trivial fun content => ?_
    cases content with
    | none => trivial
    | some bytes =>
      simp only [Prog.within_ite]
      exact ⟨fun _ => failedBy_plain _ _ _, fun _ => trivial⟩
  | false =>
    simp only [Bool.false_eq_true, if_false]
    rw [Prog.within_bind]
    refine ⟨failedBy_plain _ _ _, fun _ _ => ?_⟩
    refine plain_bind trivial fun persisted => ?_
    cases persisted with
    | true => exact failedBy_plain _ _ _
    | false => trivial

omit [DecidableEq H] in
theorem fetch_plain (hash : H) (target : ε) (expectedSize : Nat) (outside : Surroundings) :
    (do StorageNode.transfer hash outside
        StorageNode.exportTryReference store hashes hash outside
        StorageNode.verifyExportedSize target expectedSize : NodeProg ε H Unit).Within
      (NodeCmd.Plain (some hash)) := by
  have transferred : (StorageNode.transfer hash outside : NodeProg ε H Unit).Within
      (NodeCmd.Plain (some hash)) := by
    unfold StorageNode.transfer
    split
    · exact ⟨rfl, fun _ => trivial⟩
    · refine plain_bind rfl fun complete => ?_
      cases complete <;> trivial
    · trivial
  rw [Prog.within_bind]
  refine ⟨transferred, fun _ _ => ?_⟩
  rw [Prog.within_bind]
  refine ⟨exportTryReference_plain _ hash outside, fun _ _ => ?_⟩
  unfold StorageNode.verifyExportedSize
  refine plain_bind trivial fun size => ?_
  rw [Prog.within_ite]
  exact ⟨fun _ => trivial, fun _ => trivial⟩

abbrev Released (stage : NodeStage H) (_ : Except SnatchError α) : Prop := stage.guard = none

theorem guarded_follows {hash : H} {inner : NodeProg ε H α}
    (plain : inner.Within (NodeCmd.Plain (some hash))) (free : stage.guard = none) :
    (nodeCallProtocol ε hashes caller).Follows (StorageNode.guarded hash inner) stage Released := by
  unfold StorageNode.guarded
  rw [Protocol.follows_bind]
  refine ⟨free, fun _ => ?_⟩
  simp only [Protocol.follows_bind, Protocol.follows_result, Protocol.follows_ret]
  refine (plain_follows plain).imp fun later result kept => ?_
  refine ⟨kept, fun _ => ?_⟩
  simp only [Protocol.follows_ret, Protocol.follows_ofExcept]
  rfl

theorem plain_released {p : NodeProg ε H α}
    (plain : p.Within (NodeCmd.Plain stage.guard)) (free : stage.guard = none) :
    (nodeCallProtocol ε hashes caller).Follows p stage Released :=
  (plain_follows plain).imp fun _ _ kept => kept.trans free

theorem released_bind {β : Type} {p : NodeProg ε H α} {later : α → NodeProg ε H β} (first : (nodeCallProtocol ε hashes caller).Follows p stage Released)
    (rest : ∀ value (stage : NodeStage H), stage.guard = none →
      (nodeCallProtocol ε hashes caller).Follows (later value) stage Released) :
    (nodeCallProtocol ε hashes caller).Follows (p >>= later) stage Released := by
  rw [Protocol.follows_bind]
  refine first.imp fun stage' result free => ?_
  cases result with
  | ok value => exact rest value stage' free
  | error error => exact free

theorem downloadBlob_follows (blake3 : Digest) (provider : String) (expectedSize : Nat)
    (outside : Surroundings) (free : stage.guard = none) :
    (nodeCallProtocol ε hashes caller).Follows
      (StorageNode.downloadBlob store hashes blake3 provider expectedSize outside) stage
      Released := by
  unfold StorageNode.downloadBlob
  refine released_bind (plain_released (by simp) free) fun _ stage free => ?_
  split
  · exact free
  · have looks : (StorageNode.targetLooksComplete (store.canonical blake3) expectedSize :
        NodeProg ε H Bool).Within (NodeCmd.Plain stage.guard) := ⟨trivial, fun _ => trivial⟩
    refine released_bind (plain_released looks free) fun complete stage' free => ?_
    cases complete with
    | true => exact plain_released (failedBy_plain _ _ _) free
    | false =>
      simp only [Bool.false_eq_true, if_false]
      split
      · exact free
      · exact guarded_follows (fetch_plain _ _ _ _) free

omit [DecidableEq H] in
theorem localBlobPresence_plain (guard : Option H) (blake3 : Digest) :
    (StorageNode.localBlobPresence store blake3 : NodeProg ε H _).Within
      (NodeCmd.Plain guard) := by
  unfold StorageNode.localBlobPresence
  refine plain_bind trivial fun found => ?_
  cases found with
  | none => trivial
  | some record =>
    simp only [Prog.within_ite]
    refine ⟨fun _ => trivial, fun _ => ?_⟩
    refine plain_bind trivial fun size => ?_
    rw [Prog.within_ite]
    exact ⟨fun _ => trivial, fun _ => trivial⟩

theorem snatchDescriptor_follows (descriptor : BlobDescriptor) (outside : Surroundings)
    (now : Int) (free : stage.guard = none) : (nodeCallProtocol ε hashes caller).Follows
      (StorageNode.snatchDescriptor store hashes descriptor outside now) stage Released := by
  unfold StorageNode.snatchDescriptor
  split
  · exact free
  · rename_i blake3 _
    refine released_bind (plain_released (localBlobPresence_plain _ _) free)
      fun presence stage free => ?_
    cases presence with
    | active => exact free
    | softDeleted => exact free
    | missing =>
      refine released_bind (plain_released (by simp) free) fun provider stage free => ?_
      refine released_bind (downloadBlob_follows _ _ _ _ free) fun _ stage free => ?_
      refine released_bind (plain_released (embed_plain _ _) free) fun _ stage free => free

theorem NodeOp.prog_follows (op : NodeOp π H) (free : stage.guard = none) :
    (nodeCallProtocol ε hashes op).Follows (op.prog store hashes) stage Released := by
  cases op with
  | refresh => exact ⟨trivial, fun listing => ⟨rfl, fun _ => free⟩⟩
  | protectCb live =>
    refine ⟨trivial, fun found => ?_⟩
    cases found with
    | none => exact free
    | some set => exact ⟨⟨set, rfl, Finset.subset_union_right⟩, fun _ => free⟩
  | inFlightGuard hash =>
    exact released_bind (guarded_follows (Prog.within_ret _) free) fun _ stage free => free
  | snatch descriptor outside now =>
    exact released_bind (snatchDescriptor_follows descriptor outside now free)
      fun _ stage free => free
  | blob op => exact released_bind (plain_released (embed_plain _ _) free) fun _ stage free => free

theorem NodeOp.call_obeys (op : NodeOp π H) :
    (Thread.start (op.call store hashes)).Obeys (nodePoolProtocol π ε hashes) := by
  have follows : (nodeCallProtocol ε hashes op).Follows (op.prog store hashes) .start Released :=
    op.prog_follows rfl
  exact (nodePoolProtocol_embed _ _ _).mpr (follows.imp fun _ _ _ => trivial)

end Follows

section Invariant

variable {π ε H : Type} [DecidableEq H] (hashes : Hashes H)

/-- A snapshot has the hashes of all rows, unless rows were added since. -/
def Snapshot.Current (s : StorageNode ε H) (snapshot : Snapshot H) : Prop :=
  snapshot.additions ≤ s.additions ∧ (snapshot.additions = s.additions →
    ∀ row ∈ s.blobz.rows, ∀ hash, hashes.parse row.blake3 = .ok hash → hash ∈ snapshot.hashes)

/-- What is downloaded is under the guard until the snatch goes on to register it. -/
def NodeStage.Held (stage : NodeStage H) : Prop :=
  ∀ hash, stage.progress.owes hash → stage.progress.exposed hash ∨ stage.guard = some hash

/-- The protected set and what the calls have read of it are as old as they say, and the hashes of
the guards are in flight. -/
structure Sheltered (s : StorageNode ε H) (stages : List (NodeStage H)) : Prop where
  protectedSet : ∀ snapshot, s.protectedSet = some snapshot → snapshot.Current hashes s
  snapshots : ∀ stage ∈ stages, ∀ snapshot, stage.snapshot = some snapshot →
    snapshot.Current hashes s
  guards : ∀ stage ∈ stages, ∀ hash, stage.guard = some hash → hash ∈ s.inFlight
  held : ∀ stage ∈ stages, stage.Held

/-- What a collection must not sweep: the hash has a row, or a guard, or it is downloaded and its
row is still to come. -/
def StorageNode.Wanted (s : StorageNode ε H) (stages : List (NodeStage H)) (hash : H) : Prop :=
  (∃ row ∈ s.blobz.rows, hashes.parse row.blake3 = .ok hash) ∨
    ∃ stage ∈ stages, stage.guard = some hash ∨ stage.progress.owes hash

/-- When a call may take its next step: a guard is released while no other has its hash, and a
callback ends while no row has been added since the listing that it has read and no snatch is
between its guard and its row. -/
def MaySweep (s : StorageNode ε H) (own : NodeStage H) (others : List (NodeStage H)) {β : Type} :
    StorageCmd ε H β → Prop
  | .removeInFlight hash => ∀ stage ∈ others, stage.guard ≠ some hash
  | .extendInFlight _ =>
    (∀ snapshot, own.snapshot = some snapshot → snapshot.additions = s.additions) ∧
      ∀ stage ∈ others, ∀ hash, ¬stage.progress.exposed hash
  | _ => True

variable {hashes} {s s' : StorageNode ε H} {own own' : NodeStage H}
  {others stages : List (NodeStage H)}

omit [DecidableEq H] in
theorem Snapshot.Current.mono {snapshot : Snapshot H} (current : snapshot.Current hashes s)
    (grows : s.additions ≤ s'.additions)
    (counted : s'.additions = s.additions → ∀ row ∈ s'.blobz.rows, ∃ old ∈ s.blobz.rows,
      old.blake3 = row.blake3) : snapshot.Current hashes s' := by
  obtain ⟨earlier, covers⟩ := current
  refine ⟨earlier.trans grows, fun same row present hash named => ?_⟩
  have unchanged : s'.additions = s.additions := Nat.le_antisymm (same ▸ earlier) grows
  obtain ⟨old, known, samehash⟩ := counted unchanged row present
  refine covers (same.trans unchanged) old known hash ?_
  rw [samehash]
  exact named

omit [DecidableEq H] in
theorem Sheltered.congr (sheltered : Sheltered hashes s stages) {stages' : List (NodeStage H)}
    (same : ∀ stage, stage ∈ stages' ↔ stage ∈ stages) : Sheltered hashes s stages' where
  protectedSet := sheltered.protectedSet
  snapshots stage member := sheltered.snapshots stage ((same stage).mp member)
  guards stage member := sheltered.guards stage ((same stage).mp member)
  held stage member := sheltered.held stage ((same stage).mp member)

omit [DecidableEq H] in
theorem Sheltered.mono (sheltered : Sheltered hashes s (own :: others))
    (kept : ∀ snapshot : Snapshot H, snapshot.Current hashes s → snapshot.Current hashes s')
    (protectedSet : s'.protectedSet = s.protectedSet) (inFlight : s'.inFlight = s.inFlight)
    (guard : own'.guard = own.guard) (snapshot : own'.snapshot = own.snapshot)
    (held : own'.Held) : Sheltered hashes s' (own' :: others) where
  protectedSet snapshot known := by
    rw [protectedSet] at known
    exact kept snapshot (sheltered.protectedSet snapshot known)
  snapshots stage member read known := by
    rcases List.mem_cons.mp member with rfl | member
    · rw [snapshot] at known
      exact kept read (sheltered.snapshots own List.mem_cons_self read known)
    · exact kept read (sheltered.snapshots stage (List.mem_cons_of_mem _ member) read known)
  guards stage member hash holds := by
    rw [inFlight]
    rcases List.mem_cons.mp member with rfl | member
    · rw [guard] at holds
      exact sheltered.guards own List.mem_cons_self hash holds
    · exact sheltered.guards stage (List.mem_cons_of_mem _ member) hash holds
  held stage member := by
    rcases List.mem_cons.mp member with rfl | member
    · exact held
    · exact sheltered.held stage (List.mem_cons_of_mem _ member)

omit [DecidableEq H] in
theorem Sheltered.move (sheltered : Sheltered hashes s (own :: others))
    {protectedSet : Option (Snapshot H)} {inFlight : Finset H}
    (known : ∀ snapshot, protectedSet = some snapshot → snapshot.Current hashes s)
    (read : ∀ snapshot, own'.snapshot = some snapshot → snapshot.Current hashes s)
    (holds : ∀ hash, own'.guard = some hash → hash ∈ inFlight)
    (keeps : ∀ stage ∈ others, ∀ hash, stage.guard = some hash → hash ∈ s.inFlight →
      hash ∈ inFlight) (held : own'.Held) :
    Sheltered hashes { s with protectedSet, inFlight } (own' :: others) where
  protectedSet := known
  snapshots stage member := by
    rcases List.mem_cons.mp member with rfl | among
    · exact read
    · exact sheltered.snapshots stage (List.mem_cons_of_mem _ among)
  guards stage member hash guarded := by
    rcases List.mem_cons.mp member with rfl | among
    · exact holds hash guarded
    · have flies := sheltered.guards stage (List.mem_cons_of_mem _ among) hash guarded
      exact keeps stage among hash guarded flies
  held stage member := by
    rcases List.mem_cons.mp member with rfl | among
    · exact held
    · exact sheltered.held stage (List.mem_cons_of_mem _ among)

theorem added_eq_zero {before after : Blobz ε} (none : StorageNode.added before after = 0) :
    ∀ row ∈ after.rows, ∃ old ∈ before.rows, old.blake3 = row.blake3 := by
  intro row present
  have known := List.filter_eq_nil_iff.mp (List.length_eq_zero_iff.mp none) row present
  cases found : before.rows.get row.blake3 with
  | none =>
    rw [found] at known
    exact absurd rfl known
  | some old => exact ⟨old, (Table.get_eq_some _ _ _).mp found⟩

end Invariant

section Steps

variable {π ε H : Type} [DecidableEq ε] [DecidableEq H] {hashes : Hashes H}
  {s : StorageNode ε H} {caller : NodeOp π H} {own : NodeStage H} {others : List (NodeStage H)}

theorem mem_parsed (hexHashes : List Digest) (hash : H) :
    hash ∈ StorageNode.parsed hashes hexHashes ↔
      ∃ hex ∈ hexHashes, hashes.parse hex = .ok hash := by
  have named (hex : Digest) : (hashes.parse hex).toOption = some hash ↔
      hashes.parse hex = .ok hash := by
    cases hashes.parse hex <;> simp [Except.toOption]
  simp only [StorageNode.parsed, List.mem_toFinset, List.mem_filterMap, named]

omit [DecidableEq ε] [DecidableEq H] in
theorem Progress.owes_nextBlobz {descriptor : BlobDescriptor} {outside : Surroundings}
    {progress : Progress H} {β : Type} {command : BlobCmd ε β} {answer : β} {hash : H}
    (due : (progress.nextBlobz hashes descriptor outside command answer).owes hash) :
    (progress.nextBlobz hashes descriptor outside command answer).exposed hash ∨
      progress.owes hash ∧ ¬progress.exposed hash := by
  have same (due : progress.owes hash) :
      progress.exposed hash ∨ progress.owes hash ∧ ¬progress.exposed hash := by
    by_cases bare : progress.exposed hash
    · exact .inl bare
    · exact .inr ⟨due, bare⟩
  cases command with
  | getAny blake3 =>
    cases progress with
    | before =>
      cases answer with
      | none => exact due.elim
      | some record => exact due.elim
    | pending other =>
      cases answer with
      | none => exact .inl due
      | some record => exact due.elim
    | presence => exact due.elim
    | missing => exact due.elim
    | downloaded other => exact same due
    | verified other => exact same due
    | registering other => exact .inl due
    | ended => exact due.elim
  | metadata entry =>
    cases progress with
    | missing =>
      simp only [nextBlobz] at due ⊢
      split at due
      · exact .inl due
      · exact due.elim
    | downloaded other =>
      simp only [nextBlobz] at due ⊢
      split at due
      · exact .inr ⟨due, fun bare => bare⟩
      · exact due.elim
    | registering other =>
      cases answer with
      | none => exact due.elim
      | some size => exact .inl due
    | before => exact due.elim
    | presence => exact due.elim
    | verified other => exact same due
    | pending other => exact .inl due
    | ended => exact due.elim
  | insertOrIgnore row => exact due.elim
  | updateSize blake3 size => exact same due
  | updatePath blake3 path => exact same due
  | softDelete blake3 now actor => exact same due
  | restore blake3 => exact same due
  | selectSoftDeleted blake3 => exact same due
  | selectAllSoftDeleted => exact same due
  | deleteRow blake3 => exact same due
  | read entry => exact same due
  | write entry content => exact same due
  | removeFile entry => exact same due
  | rename entry target => exact same due
  | copy entry target => exact same due

omit [DecidableEq ε] in
theorem NodeStage.Held.next (held : own.Held) {β : Type} {command : NodeCmd ε H β}
    (legal : own.legal command) (answer : β) : (own.next hashes caller command answer).Held := by
  cases command with
  | blobz command =>
    cases caller with
    | snatch descriptor outside now =>
      intro hash due
      rcases Progress.owes_nextBlobz due with bare | ⟨due', covered⟩
      · exact .inl bare
      · exact .inr ((held hash due').resolve_left covered)
    | refresh => exact held
    | protectCb live => exact held
    | inFlightGuard hash => exact held
    | blob op => exact held
  | storage command =>
    cases command with
    | listAllIrohHashes => exact held
    | writeProtected snapshot => exact held
    | readProtected => exact held
    | extendInFlight live => exact held
    | insertInFlight hash =>
      intro other due
      rcases held other due with bare | guarded
      · exact .inl bare
      · rw [show own.guard = none from legal] at guarded
        cases guarded
    | removeInFlight hash =>
      intro other due
      simp only [NodeStage.next, NodeStage.nextStorage] at due ⊢
      split at due
      · exact .inl due
      · exact due.elim
    | download hash =>
      rintro other rfl
      exact .inr legal
    | has hash =>
      intro other due
      cases answer with
      | true =>
        obtain rfl : hash = other := due
        exact .inr legal
      | false => exact due.elim
    | tryExists entry => exact held
    | persistNoclobber entry content => exact held

theorem Sheltered.step (sheltered : Sheltered hashes s (own :: others)) {β : Type}
    {command : NodeCmd ε H β} (legal : own.legal command)
    (may : ∀ storage, command = .storage storage → MaySweep s own others storage) :
    Sheltered hashes (StorageNode.exec command s).2
      (own.next hashes caller command (StorageNode.exec command s).1 :: others) := by
  have held : (own.next hashes caller command (StorageNode.exec command s).1).Held :=
    (sheltered.held own List.mem_cons_self).next legal _
  cases command with
  | blobz command =>
    refine sheltered.mono (fun snapshot current => ?_) rfl rfl ?_ ?_ held
    · refine current.mono (Nat.le_add_right _ _) fun same => added_eq_zero ?_
      exact Nat.add_left_cancel same
    · cases caller <;> rfl
    · cases caller <;> rfl
  | storage command =>
    have may := may command rfl
    have still : ∀ snapshot : Snapshot H, snapshot.Current hashes s →
        snapshot.Current hashes s := fun _ current => current
    cases command with
    | listAllIrohHashes =>
      refine sheltered.move sheltered.protectedSet (fun snapshot read => ?_)
        (fun hash => sheltered.guards own List.mem_cons_self hash) (fun _ _ _ _ flies => flies) held
      obtain rfl := Option.some.inj read
      refine ⟨Nat.le_refl _, fun _ row present hash named => ?_⟩
      exact (mem_parsed _ _).mpr ⟨row.blake3, List.mem_map_of_mem present, named⟩
    | writeProtected snapshot =>
      refine sheltered.move (fun other known => ?_) (sheltered.snapshots own List.mem_cons_self)
        (sheltered.guards own List.mem_cons_self) (fun _ _ _ _ flies => flies) held
      obtain rfl : snapshot = other := Option.some.inj known
      exact sheltered.snapshots own List.mem_cons_self snapshot legal
    | readProtected =>
      exact sheltered.move sheltered.protectedSet sheltered.protectedSet
        (sheltered.guards own List.mem_cons_self) (fun _ _ _ _ flies => flies) held
    | extendInFlight live => exact sheltered.mono still rfl rfl rfl rfl held
    | insertInFlight hash =>
      refine sheltered.move sheltered.protectedSet (sheltered.snapshots own List.mem_cons_self)
        (fun other holds => ?_) (fun _ _ _ _ => Finset.mem_insert_of_mem) held
      obtain rfl : hash = other := Option.some.inj holds
      exact Finset.mem_insert_self _ _
    | removeInFlight hash =>
      refine sheltered.move sheltered.protectedSet (sheltered.snapshots own List.mem_cons_self)
        (fun _ holds => nomatch holds) (fun stage member other holds flies => ?_) held
      refine Finset.mem_erase.mpr ⟨?_, flies⟩
      rintro rfl
      exact may stage member holds
    | download hash => exact sheltered.mono still rfl rfl rfl rfl held
    | has hash => exact sheltered.mono still rfl rfl rfl rfl held
    | tryExists entry => exact sheltered.mono still rfl rfl rfl rfl held
    | persistNoclobber entry content =>
      cases there : s.blobz.drive.read entry with
      | some bytes =>
        simp only [StorageNode.exec, StorageNode.execStorage, there]
        exact sheltered.mono still rfl rfl rfl rfl held
      | none =>
        simp only [StorageNode.exec, StorageNode.execStorage, there]
        exact sheltered.mono still rfl rfl rfl rfl held

omit [DecidableEq ε] in
/-- A callback that ends at its turn has everything in its live set that must not be swept. -/
theorem Sheltered.covers (sheltered : Sheltered hashes s (own :: others)) {live : Finset H}
    (legal : own.legal (.storage (.extendInFlight live : StorageCmd ε H _)))
    (may : MaySweep s own others (.extendInFlight live : StorageCmd ε H _)) {hash : H}
    (wanted : s.Wanted hashes others hash) : hash ∈ live ∪ s.inFlight := by
  obtain ⟨snapshot, read, inside⟩ := legal
  obtain ⟨fresh, settled⟩ := may
  rcases wanted with ⟨row, present, named⟩ | ⟨stage, member, holds | owes⟩
  · have current := sheltered.snapshots own List.mem_cons_self snapshot read
    have known := current.2 (fresh snapshot read) row present hash named
    exact Finset.mem_union_left _ (inside known)
  · exact Finset.mem_union_right _
      (sheltered.guards stage (List.mem_cons_of_mem _ member) hash holds)
  · have member' := List.mem_cons_of_mem own member
    have guarded := (sheltered.held stage member' hash owes).resolve_left
      (settled stage member hash)
    exact Finset.mem_union_right _ (sheltered.guards stage member' hash guarded)

end Steps

section Runs

variable {π ε H : Type} [DecidableEq ε] [DecidableEq H] (store : SqliteBlobStore π ε)
  (hashes : Hashes H)

abbrev NodePool (π ε H : Type) := Pool (NodeCall π ε H) (StorageNode ε H) SnatchError (NodeAnswer H)

def startNode (node : StorageNode ε H) (ops : List (NodeOp π H)) : NodePool π ε H :=
  Pool.start node (ops.map (NodeOp.call store hashes))

def nodeStages (threads : List (Thread (NodeCall π ε H) SnatchError (NodeAnswer H))) :
    List (NodeStage H) :=
  threads.map fun thread => (nodePoolProtocol π ε hashes).stage thread.past

def sweepTurns : Guard (NodeCall π ε H) (StorageNode ε H) SnatchError (NodeAnswer H) :=
  fun s before thread after =>
    match thread.prog with
    | .call ⟨_, .storage command⟩ _ =>
      MaySweep s ((nodePoolProtocol π ε hashes).stage thread.past)
        (nodeStages hashes (before ++ after)) command
    | _ => True

variable {store hashes}

/-- Over every run of calls that take turns: when a callback takes its last step at its turn, the
live set that it answers has every hash that must not be swept. -/
theorem live_set_covers (node : StorageNode ε H) (fresh : node.protectedSet = none)
    (ops : List (NodeOp π H)) (pool : NodePool π ε H)
    (run : Pool.Run (fun _ _ => False) (sweepTurns hashes) (startNode store hashes node ops) pool)
    (before after : List (Thread (NodeCall π ε H) SnatchError (NodeAnswer H)))
    (caller : NodeOp π H) (live : Finset H)
    (next : Finset H → Prog (NodeCall π ε H) SnatchError (NodeAnswer H))
    (past : List (Event (NodeCall π ε H)))
    (callback : pool.threads =
      before ++ ⟨.call ⟨caller, .storage (.extendInFlight live)⟩ next, past⟩ :: after)
    (turn : sweepTurns hashes pool.state before
      ⟨.call ⟨caller, .storage (.extendInFlight live)⟩ next, past⟩ after)
    (hash : H) (wanted : pool.state.Wanted hashes (nodeStages hashes (before ++ after)) hash) :
    hash ∈ (StorageNode.exec (.storage (.extendInFlight live)) pool.state).1 := by
  have obeys : ∀ thread ∈ (startNode store hashes node ops).threads,
      thread.Obeys (nodePoolProtocol π ε hashes) := by
    simp only [startNode, Pool.start, List.map_map, List.forall_mem_map]
    exact fun op _ => op.call_obeys
  have first : Sheltered hashes node
      (((startNode store hashes node ops).threads.map
        (Thread.view (nodePoolProtocol π ε hashes))).map Prod.fst) := by
    have stages : ∀ stage ∈ ((startNode store hashes node ops).threads.map
        (Thread.view (nodePoolProtocol π ε hashes))).map Prod.fst, stage = .start := by
      simp only [startNode, Pool.start, List.map_map, List.forall_mem_map]
      exact fun _ _ => rfl
    refine ⟨fun snapshot known => ?_, fun stage member snapshot read => ?_,
      fun stage member hash holds => ?_, fun stage member hash owes => ?_⟩
    · rw [fresh] at known
      cases known
    · rw [stages stage member] at read
      cases read
    · rw [stages stage member] at holds
      cases holds
    · rw [stages stage member] at owes
      exact owes.elim
  have reached := Pool.Run.keeps (nodePoolProtocol π ε hashes)
    (fun state views => Sheltered hashes state (views.map Prod.fst)) (fun change => change.elim) ?_
    obeys first run
  · obtain ⟨kept, holds⟩ := reached
    have obedient : Thread.Obeys (nodePoolProtocol π ε hashes)
        ⟨.call ⟨caller, .storage (.extendInFlight live)⟩ next, past⟩ :=
      kept _ (callback ▸ List.mem_append_right _ List.mem_cons_self)
    have legal : ((nodePoolProtocol π ε hashes).stage past).legal
        (.storage (.extendInFlight live : StorageCmd ε H _)) := obedient.1
    rw [callback, List.map_append] at holds
    exact (holds.congr fun stage => (mem_stages _ _ _ _ _ _).symm).covers legal turn wanted
  · intro s before after thread β command next status called allowed legal _ sheltered
    obtain ⟨prog, past⟩ := thread
    obtain ⟨caller, command⟩ := command
    obtain rfl : prog = .call ⟨caller, command⟩ next := called
    have moved : Sheltered hashes (StorageNode.exec command s).2
        (((nodePoolProtocol π ε hashes).stage past).next hashes caller command
          (StorageNode.exec command s).1 :: nodeStages hashes (before ++ after)) := by
      refine (sheltered.congr fun stage => (mem_stages _ _ _ _ _ _).symm).step legal ?_
      rintro storage rfl
      exact allowed
    exact moved.congr fun stage => mem_stages _ _ _ _ _ _

end Runs

def plainHashes : Hashes (List Char) where
  parse hex := .ok hex.text
  toHex hash := ⟨'0' :: '0' :: hash, by simp⟩
  content _ := []

def oneBlobNode : StorageNode (List Char) (List Char) :=
  ⟨((plainStore.insert [7] {} 0).run .empty).2, none, ∅, ∅, 0⟩

def twoGuards : NodePool (List Char) (List Char) (List Char) :=
  startNode plainStore plainHashes oneBlobNode
    [.refresh, .protectCb ∅, .inFlightGuard ['x'], .inFlightGuard ['x']]

def sweptUnderGuard : NodePool (List Char) (List Char) (List Char) :=
  twoGuards.schedule [0, 0, 2, 1]

/-- The guarded hash is in the live set. -/
theorem guarded_hash_survives : ['x'] ∈ (StorageNode.exec
    (.storage (.extendInFlight (∅ ∪ StorageNode.parsed plainHashes [plainStore.hash [7]])))
    sweptUnderGuard.state).1 := by
  have admitted : Pool.Admitted (sweepTurns plainHashes) twoGuards [0, 0, 2, 1] :=
    ⟨trivial, trivial, trivial, trivial, trivial⟩
  have stages : nodeStages plainHashes
      (sweptUnderGuard.threads.take 1 ++ sweptUnderGuard.threads.drop 2) =
      [⟨none, some ⟨StorageNode.parsed plainHashes [plainStore.hash [7]], 0⟩, .before⟩,
        ⟨some ['x'], none, .before⟩, .start] := rfl
  refine live_set_covers oneBlobNode rfl _ sweptUnderGuard (Pool.run_of_admitted admitted)
    (sweptUnderGuard.threads.take 1) (sweptUnderGuard.threads.drop 2) _ _ _ _ rfl ⟨?_, ?_⟩ ['x'] ?_
  · intro snapshot read
    exact (congrArg Snapshot.additions (Option.some.inj read)).symm
  · rw [stages]
    simp [NodeStage.start, Progress.exposed]
  · rw [stages]
    exact .inr ⟨⟨some ['x'], none, .before⟩, by simp, .inl rfl⟩

/-- With one of two guards released, a callback leaves the hash of the other out. -/
theorem second_guard_is_swept : ¬∀ (node : StorageNode (List Char) (List Char))
    (ops : List (NodeOp (List Char) (List Char)))
    (pool : NodePool (List Char) (List Char) (List Char)), node.protectedSet = none →
    Pool.Run (fun _ _ => False) Guard.any (startNode plainStore plainHashes node ops) pool →
    ∀ before after caller live next past, pool.threads =
      before ++ ⟨.call ⟨caller, .storage (.extendInFlight live)⟩ next, past⟩ :: after →
    ∀ hash, pool.state.Wanted plainHashes (nodeStages plainHashes (before ++ after)) hash →
      hash ∈ (StorageNode.exec (.storage (.extendInFlight live)) pool.state).1 := by
  intro claimed
  let pool := twoGuards.schedule [0, 0, 2, 3, 2, 1]
  have stages : nodeStages plainHashes (pool.threads.take 1 ++ pool.threads.drop 2) =
      [⟨none, some ⟨StorageNode.parsed plainHashes [plainStore.hash [7]], 0⟩, .before⟩,
        ⟨none, none, .ended⟩, ⟨some ['x'], none, .before⟩] := rfl
  have wanted : pool.state.Wanted plainHashes
      (nodeStages plainHashes (pool.threads.take 1 ++ pool.threads.drop 2)) ['x'] := by
    rw [stages]
    exact .inr ⟨⟨some ['x'], none, .before⟩, by simp, .inl rfl⟩
  have covered := claimed oneBlobNode _ pool rfl (Pool.run_schedule _ _) (pool.threads.take 1)
    (pool.threads.drop 2) _ _ _ _ rfl ['x'] wanted
  have swept : ['x'] ∉ (∅ : Finset (List Char)) ∪
      StorageNode.parsed plainHashes [plainStore.hash [7]] ∪ pool.state.inFlight := by
    decide
  exact swept covered

end Tomb.Reliquary
