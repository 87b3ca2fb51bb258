import Mathlib.Data.Finset.Lattice.Lemmas
import Tomb.Lib.Marking
import Tomb.Midden.OpfsStore

/-! What a gc cycle keeps and what it deletes. -/
namespace Tomb.Midden
open Tomb.Lib

/-- The child is one of the 32-byte hashes in the complete data. -/
def CompleteState.Lists (state : CompleteState) (child : Hash) : Prop :=
  ∃ i, 32 * i + 32 ≤ state.size ∧ (state.data.bytes.drop (32 * i)).take 32 = child.val

namespace GcOptions

def protectedHashes (gc : GcOptions) : Finset Hash := gc.addProtected.elim ∅ Prod.snd

def aborts (gc : GcOptions) : Bool :=
  gc.addProtected.any fun answer => decide (answer.1 = .abort)

end GcOptions

namespace Ctx

def complete (ctx : Ctx) (hash : Hash) : Option CompleteState :=
  (ctx.get hash).bind fun entry => match entry.state with
    | .complete state => some state
    | .partialBlob _ => none

/-- Protected, tagged, temp-tagged, or a child of a root that is a hash sequence. -/
def Reachable (ctx : Ctx) (start : Finset Hash) (hash : Hash) : Prop :=
  hash ∈ start ∨ (∃ root ∈ ctx.roots, root.hash = hash) ∨
    ∃ root ∈ ctx.roots, root.format = .hashSeq ∧
      ∃ state, ctx.complete root.hash = some state ∧ state.Lists hash

/-- The entry of a hash and its files are what they were. -/
def Holds (ctx before : Ctx) (hash : Hash) : Prop :=
  ctx.get hash = before.get hash ∧ ∀ kind, (hash, kind) ∈ ctx.dir ↔ (hash, kind) ∈ before.dir

def Gone (ctx : Ctx) (hash : Hash) : Prop :=
  ctx.get hash = none ∧ ∀ kind, (hash, kind) ∉ ctx.dir

/-- The contract of a gc cycle: every reachable entry stays, and every other one goes if the cycle
runs and no deletion fails. -/
def GcContract (fails : Hash × FileKind → Bool) (gc : GcOptions) (ctx : Ctx) : Prop :=
  ∀ hash, (ctx.get hash).isSome →
    (ctx.Reachable gc.protectedHashes hash → (ctx.runGcCycle fails gc).Holds ctx hash) ∧
    (¬ctx.Reachable gc.protectedHashes hash → ctx.isIdle → gc.aborts = false →
      (∀ file, fails file = false) → (ctx.runGcCycle fails gc).Gone hash)

def marks (ctx : Ctx) (root : HashAndFormat) : List Hash :=
  if root.format = .raw then []
  else (ctx.complete root.hash).elim [] fun state => readHashes state.data (state.size / 32) 0

/-- Every child entry of a hash sequence that nothing names directly is read from some root whose
hash is not protected, not named by an earlier root and not read from an earlier one. -/
def ChildrenMarked (ctx : Ctx) (start : Finset Hash) : Prop :=
  ∀ root ∈ ctx.roots, root.format = .hashSeq → ∀ state, ctx.complete root.hash = some state →
    ∀ child, state.Lists child → (ctx.get child).isSome → child ∉ start →
      (∀ other ∈ ctx.roots, other.hash ≠ child) →
      ∃ (before : List HashAndFormat) (first : HashAndFormat) (after : List HashAndFormat),
        ctx.roots = before ++ first :: after ∧
        Unmarked HashAndFormat.hash ctx.marks start before.reverse first.hash ∧
        child ∈ ctx.marks first

/-! The mark phase is the library's, and reads only children. -/

theorem foldl_insert (children : List Hash) (live : Finset Hash) :
    children.foldl (fun live child => insert child live) live = live ∪ children.toFinset := by
  induction children generalizing live with
  | nil => simp
  | cons child rest ih =>
    rw [List.foldl_cons, ih, List.toFinset_cons, Finset.insert_union, Finset.union_insert]

theorem markRoot_eq (ctx : Ctx) (live : Finset Hash) (root : HashAndFormat) :
    ctx.markRoot live root = Lib.markRoot HashAndFormat.hash ctx.marks live root := by
  unfold Ctx.markRoot Lib.markRoot marks complete
  split
  · rfl
  · by_cases raw : root.format = .raw
    · simp [raw]
    · simp only [raw, if_false]
      cases found : ctx.get root.hash with
      | none => simp
      | some entry =>
        obtain ⟨hash, state⟩ := entry
        cases state with
        | partialBlob size => simp
        | complete state =>
          simp only [foldl_insert, Option.bind_some, Option.elim_some]

theorem mark_eq (ctx : Ctx) (live : Finset Hash) :
    ctx.mark live = Lib.mark HashAndFormat.hash ctx.marks ctx.roots live := by
  unfold Ctx.mark Lib.mark
  congr 1
  funext live root
  exact markRoot_eq ctx live root

theorem lists_of_read (state : CompleteState) (rounds start : Nat)
    (within : 32 * (start + rounds) ≤ state.size) (child : Hash)
    (read : child ∈ readHashes state.data rounds (32 * start)) : state.Lists child := by
  induction rounds generalizing start with
  | zero => cases read
  | succ rounds ih =>
    simp only [readHashes] at read
    split at read
    · rename_i first found
      rcases List.mem_cons.mp read with rfl | later
      · refine ⟨start, by omega, ?_⟩
        unfold BlobFile.readExactAt at found
        split at found
        · exact congrArg Subtype.val (Option.some.inj found)
        · cases found
      · exact ih (start + 1) (by omega) (by rwa [Nat.mul_add, Nat.mul_one])
    · cases read

theorem reachable_of_marks {ctx : Ctx} {start : Finset Hash} {root : HashAndFormat}
    (member : root ∈ ctx.roots) {child : Hash} (read : child ∈ ctx.marks root) :
    ctx.Reachable start child := by
  unfold marks at read
  split at read
  · cases read
  · rename_i deep
    cases found : ctx.complete root.hash with
    | none => simp [found] at read
    | some state =>
      rw [found, Option.elim_some] at read
      have sequence : root.format = .hashSeq := by
        cases same : root.format with
        | raw => exact absurd same deep
        | hashSeq => rfl
      exact .inr (.inr ⟨root, member, sequence, state, found,
        lists_of_read state _ 0 (by omega) child read⟩)

theorem mem_mark_iff (ctx : Ctx) (start : Finset Hash) (hash : Hash) :
    hash ∈ ctx.mark start ↔
      hash ∈ start ∨ (∃ root ∈ ctx.roots, root.hash = hash) ∨
        ∃ (before : List HashAndFormat) (first : HashAndFormat) (after : List HashAndFormat),
          ctx.roots = before ++ first :: after ∧
          Unmarked HashAndFormat.hash ctx.marks start before.reverse first.hash ∧
          hash ∈ ctx.marks first := by
  rw [mark_eq, mem_mark]

variable {hash : Hash}

theorem reachable_of_mem_mark {ctx : Ctx} {start : Finset Hash}
    (marked : hash ∈ ctx.mark start) : ctx.Reachable start hash := by
  rcases (mem_mark_iff _ _ _).mp marked with known | named | ⟨before, first, after, split, -, read⟩
  · exact .inl known
  · exact .inr (.inl named)
  · exact reachable_of_marks (by rw [split]; exact List.mem_append_right _ List.mem_cons_self) read

/-- Every reachable entry is live exactly if the children of the hash sequences are marked. -/
theorem reachable_marked_iff (ctx : Ctx) (start : Finset Hash) :
    (∀ hash, (ctx.get hash).isSome → ctx.Reachable start hash → hash ∈ ctx.mark start) ↔
      ctx.ChildrenMarked start := by
  constructor
  · intro kept root member sequence state found child lists present unprotected unnamed
    rcases (mem_mark_iff _ _ _).mp (kept child present
      (.inr (.inr ⟨root, member, sequence, state, found, lists⟩))) with known | named | read
    · exact absurd known unprotected
    · obtain ⟨other, known, same⟩ := named
      exact absurd same (unnamed other known)
    · exact read
  · intro marked hash present reachable
    rw [mem_mark_iff]
    by_cases known : hash ∈ start
    · exact .inl known
    · by_cases named : ∃ root ∈ ctx.roots, root.hash = hash
      · exact .inr (.inl named)
      · rcases reachable with known' | named' | ⟨root, member, sequence, state, found, lists⟩
        · exact absurd known' known
        · exact absurd named' named
        · exact .inr (.inr (marked root member sequence state found hash lists present known
            fun other member same => named ⟨other, member, same⟩))

/-! The sweep phase, one deletion at a time. -/

theorem get_deleteBlob (fails : Hash × FileKind → Bool) (ctx : Ctx) (hash other : Hash) :
    (ctx.deleteBlob fails hash).get other = if other = hash then none else ctx.get other := by
  have entries : (ctx.deleteBlob fails hash).entries =
      ctx.entries.deleteWhere fun entry => decide (entry.hash = hash) := by
    unfold deleteBlob
    split
    · rfl
    · split
      · rfl
      · split <;> rfl
  unfold get
  rw [entries]
  split
  · rename_i same
    exact Table.get_deleteWhere_of_all _ _ _ fun entry named => by simp [named, same]
  · rename_i differs
    exact Table.get_deleteWhere_of_none _ _ _ fun entry named => by simp [named, differs]

theorem mem_dir_deleteBlob (fails : Hash × FileKind → Bool) (ctx : Ctx) {other : Hash}
    (differs : other ≠ hash) (kind : FileKind) :
    (other, kind) ∈ (ctx.deleteBlob fails hash).dir ↔ (other, kind) ∈ ctx.dir := by
  unfold deleteBlob
  split
  · rfl
  · split
    · simp [differs]
    · split <;> simp [differs]

theorem not_mem_dir_deleteBlob {fails : Hash × FileKind → Bool}
    (works : ∀ file, fails file = false) (ctx : Ctx) (hash : Hash) (kind : FileKind) :
    (hash, kind) ∉ (ctx.deleteBlob fails hash).dir := by
  cases kind <;> simp [deleteBlob, works]

theorem Holds.refl (ctx : Ctx) (hash : Hash) : ctx.Holds ctx hash := ⟨rfl, fun _ => Iff.rfl⟩

theorem Holds.trans {a b c : Ctx} (later : a.Holds b hash) (earlier : b.Holds c hash) :
    a.Holds c hash :=
  ⟨later.1.trans earlier.1, fun kind => (later.2 kind).trans (earlier.2 kind)⟩

theorem holds_deleteBlob (fails : Hash × FileKind → Bool) (ctx : Ctx) {other : Hash}
    (differs : other ≠ hash) : (ctx.deleteBlob fails hash).Holds ctx other :=
  ⟨by rw [get_deleteBlob, if_neg differs], mem_dir_deleteBlob fails ctx differs⟩

@[grind =] def sweepAll (fails : Hash × FileKind → Bool) (live : Finset Hash) (hashes : List Hash)
    (ctx : Ctx) : Ctx :=
  hashes.foldl (fun ctx hash => if hash ∈ live then ctx else ctx.deleteBlob fails hash) ctx

theorem holds_sweepAll (fails : Hash × FileKind → Bool) (live : Finset Hash) (hashes : List Hash)
    (ctx : Ctx) (kept : hash ∈ hashes → hash ∈ live) :
    (sweepAll fails live hashes ctx).Holds ctx hash := by
  induction hashes generalizing ctx with
  | nil => exact .refl ctx hash
  | cons first rest ih =>
    have later := ih (if first ∈ live then ctx else ctx.deleteBlob fails first)
      fun member => kept (List.mem_cons_of_mem _ member)
    refine later.trans ?_
    split
    · exact .refl ctx hash
    · rename_i dead
      refine holds_deleteBlob fails ctx ?_
      rintro rfl
      exact dead (kept List.mem_cons_self)

theorem get_sweepAll (fails : Hash × FileKind → Bool) (live : Finset Hash) (hashes : List Hash)
    (ctx : Ctx) (dead : hash ∉ live) (swept : hash ∈ hashes) :
    (sweepAll fails live hashes ctx).get hash = none := by
  induction hashes generalizing ctx with
  | nil => cases swept
  | cons first rest ih =>
    by_cases later : hash ∈ rest
    · exact ih _ later
    · cases (List.mem_cons.mp swept).resolve_right later
      have after := holds_sweepAll fails live rest (ctx.deleteBlob fails hash)
        fun member => absurd member later
      simp only [sweepAll, List.foldl_cons, if_neg dead]
      exact after.1.trans (by rw [get_deleteBlob, if_pos rfl])

theorem gone_sweepAll {fails : Hash × FileKind → Bool} (works : ∀ file, fails file = false)
    (live : Finset Hash) (hashes : List Hash) (ctx : Ctx) (dead : hash ∉ live)
    (swept : hash ∈ hashes) : (sweepAll fails live hashes ctx).Gone hash := by
  refine ⟨get_sweepAll fails live hashes ctx dead swept, ?_⟩
  induction hashes generalizing ctx with
  | nil => cases swept
  | cons first rest ih =>
    intro kind
    by_cases later : hash ∈ rest
    · exact ih _ later kind
    · cases (List.mem_cons.mp swept).resolve_right later
      have after := holds_sweepAll fails live rest (ctx.deleteBlob fails hash)
        fun member => absurd member later
      simp only [sweepAll, List.foldl_cons, if_neg dead]
      exact fun present => not_mem_dir_deleteBlob works ctx hash kind ((after.2 kind).mp present)

theorem mem_hashes {ctx : Ctx} (present : (ctx.get hash).isSome) :
    hash ∈ ctx.entries.rows.map Entry.hash := by
  obtain ⟨entry, found⟩ := Option.isSome_iff_exists.mp present
  obtain ⟨member, rfl⟩ := (Table.get_eq_some _ _ _).mp found
  exact List.mem_map_of_mem member

theorem holds_sweep_iff (fails : Hash × FileKind → Bool) (ctx : Ctx) (live : Finset Hash) (present : (ctx.get hash).isSome) :
    (ctx.sweep fails live).Holds ctx hash ↔ hash ∈ live := by
  constructor
  · intro held
    by_contra dead
    have gone : (ctx.sweep fails live).get hash = none :=
      get_sweepAll fails live _ ctx dead (mem_hashes present)
    rw [held.1] at gone
    rw [gone] at present
    cases present
  · exact fun marked => holds_sweepAll fails live _ ctx fun _ => marked

theorem runGcCycle_skips (fails : Hash × FileKind → Bool) (gc : GcOptions) (ctx : Ctx)
    (skips : ctx.isIdle = false ∨ gc.aborts = true) : ctx.runGcCycle fails gc = ctx := by
  unfold runGcCycle
  rcases skips with busy | aborted
  · simp [busy]
  · obtain ⟨answer⟩ := gc
    rcases answer with _ | ⟨_ | _, added⟩
    · cases aborted
    · cases aborted
    · split <;> rfl

theorem runGcCycle_runs (fails : Hash × FileKind → Bool) (gc : GcOptions) (ctx : Ctx)
    (idle : ctx.isIdle = true) (continues : gc.aborts = false) :
    ctx.runGcCycle fails gc = ctx.sweep fails (ctx.mark gc.protectedHashes) := by
  unfold runGcCycle
  rw [idle]
  obtain ⟨answer⟩ := gc
  rcases answer with _ | ⟨_ | _, added⟩
  · rfl
  · rfl
  · cases continues

/-- A gc cycle keeps to its contract exactly when it is skipped or marks the children of every
hash sequence. -/
theorem gc_contract_iff (fails : Hash × FileKind → Bool) (gc : GcOptions) (ctx : Ctx) :
    ctx.GcContract fails gc ↔
      ctx.isIdle = false ∨ gc.aborts = true ∨ ctx.ChildrenMarked gc.protectedHashes := by
  by_cases skips : ctx.isIdle = false ∨ gc.aborts = true
  · have same := runGcCycle_skips fails gc ctx skips
    rw [← or_assoc]
    refine iff_of_true ?_ (.inl skips)
    intro hash _
    rw [same]
    refine ⟨fun _ => .refl ctx hash, fun _ idle continues => ?_⟩
    rcases skips with busy | aborted
    · rw [busy] at idle
      cases idle
    · rw [aborted] at continues
      cases continues
  · push Not at skips
    obtain ⟨idle, continues⟩ := skips
    simp only [ne_eq, Bool.not_eq_false, Bool.not_eq_true] at idle continues
    simp only [idle, continues, Bool.true_eq_false, Bool.false_eq_true, false_or]
    rw [← reachable_marked_iff, GcContract, runGcCycle_runs fails gc ctx idle continues]
    constructor
    · intro contract hash present reachable
      exact (holds_sweep_iff fails ctx _ present).mp ((contract hash present).1 reachable)
    · intro marked hash present
      refine ⟨fun reachable => (holds_sweep_iff fails ctx _ present).mpr
        (marked hash present reachable), fun unreachable _ _ works => ?_⟩
      exact gone_sweepAll works _ _ ctx (fun live => unreachable (reachable_of_mem_mark live))
        (mem_hashes present)

def uniform (byte : UInt8) : Hash := ⟨List.replicate 32 byte, by simp⟩

def oneSequence : Ctx where
  dir := [(uniform 1, .data), (uniform 2, .data)]
  entries := ⟨[⟨uniform 1, .complete ⟨32, ⟨(uniform 2).val, []⟩⟩⟩,
    ⟨uniform 2, .complete ⟨1, ⟨[0], []⟩⟩⟩], by decide⟩
  tags := ⟨[⟨[116], uniform 1, .hashSeq⟩], by decide⟩
  tempTags := .new
  activeTasks := 0

/-- A hash sequence that is tagged and also protected loses its child. -/
theorem protected_sequence_loses_child :
    ¬GcContract (fun _ => false) ⟨some (.continue_, {uniform 1})⟩ oneSequence := by
  intro contract
  have lists : CompleteState.Lists ⟨32, ⟨(uniform 2).val, []⟩⟩ (uniform 2) :=
    ⟨0, by decide, by decide⟩
  have held := ((contract (uniform 2) (by decide)).1
    (.inr (.inr ⟨⟨uniform 1, .hashSeq⟩, by decide, rfl, _, rfl, lists⟩))).1
  have gone : ((oneSequence.runGcCycle (fun _ => false)
      ⟨some (.continue_, {uniform 1})⟩).get (uniform 2)).isNone := by decide
  rw [held] at gone
  exact absurd gone (by decide)

end Ctx

end Tomb.Midden
