import Tomb.Lib.Runs
import Tomb.Midden.BlobEntries

/-! What midden's opfs store exports are the blob's own bytes, unless a partial entry does not know the
blob's size. -/
namespace Tomb.Midden.Blobs
open Tomb.Lib

section Files

variable {data content buf : Bytes} {offset : Nat}

theorem length_writeAt (data : Bytes) (offset : Nat) (buf : Bytes) :
    (writeAt data offset buf).length = max data.length (offset + buf.length) := by
  unfold writeAt
  simp only [List.length_append, List.length_take, List.length_replicate, List.length_drop]
  omega

theorem getElem?_writeAt (data : Bytes) (offset : Nat) (buf : Bytes) (i : Nat) :
    (writeAt data offset buf)[i]? =
      if i < offset then (if i < data.length then data[i]? else some 0)
      else if i < offset + buf.length then buf[i - offset]? else data[i]? := by
  have front : (data.take offset ++ List.replicate (offset - data.length) (0 : UInt8)).length =
      offset := by
    rw [List.length_append, List.length_take, List.length_replicate]
    omega
  unfold writeAt
  by_cases before : i < offset
  · rw [if_pos before, List.append_assoc, List.getElem?_append_left (by rw [front]; exact before)]
    by_cases known : i < data.length
    · rw [if_pos known, List.getElem?_append_left (by rw [List.length_take]; omega),
        List.getElem?_take_of_lt before]
    · rw [if_neg known, List.getElem?_append_right (by rw [List.length_take]; omega),
        List.getElem?_replicate]
      rw [if_pos (by rw [List.length_take]; omega)]
  · rw [if_neg before]
    by_cases inside : i < offset + buf.length
    · rw [if_pos inside, List.getElem?_append_left (by rw [List.length_append, front]; exact inside),
        List.getElem?_append_right (by rw [front]; omega), front]
    · rw [if_neg inside, List.getElem?_append_right (by rw [List.length_append, front]; omega),
        List.length_append, front, List.getElem?_drop]
      congr 1
      omega

def Agrees (data content : Bytes) (c : Nat) : Prop :=
  ∀ i, 1024 * c ≤ i → i < 1024 * (c + 1) → i < content.length → data[i]? = content[i]?

theorem agrees_self (content : Bytes) (c : Nat) : Agrees content content c := fun _ _ _ _ => rfl

theorem agrees_of_chunks_le {c : Nat} (behind : chunks content.length ≤ c) :
    Agrees data content c := by
  intro i lower _ inside
  unfold chunks at behind
  omega

theorem agrees_writeAt (verified : VerifiedLeaf content) {c : Nat}
    (known : Agrees data content c ∨ chunkRange verified.leaf c = true) :
    Agrees (writeAt data verified.leaf.offset verified.leaf.data) content c := by
  intro i lower upper inside
  have length : verified.leaf.data.length =
      min (1024 * (verified.last - verified.first)) (content.length - 1024 * verified.first) := by
    unfold VerifiedLeaf.leaf
    rw [List.length_take, List.length_drop]
  have start : verified.leaf.offset = 1024 * verified.first := rfl
  rw [getElem?_writeAt, length, start]
  by_cases before : i < 1024 * verified.first
  · rw [if_pos before]
    obtain agrees | covered := known
    · have there := agrees i lower upper inside
      rw [List.getElem?_eq_getElem inside] at there ⊢
      rw [if_pos (List.getElem?_eq_some_iff.mp there).1, there]
    · have first := (Bool.and_eq_true _ _ ▸ covered : _ ∧ _).1
      have above : chunks (1024 * verified.first) ≤ c := of_decide_eq_true first
      unfold chunks at above
      omega
  · rw [if_neg before]
    by_cases inLeaf : i < 1024 * verified.first +
        min (1024 * (verified.last - verified.first)) (content.length - 1024 * verified.first)
    · rw [if_pos inLeaf]
      unfold VerifiedLeaf.leaf
      rw [List.getElem?_take_of_lt (by omega), List.getElem?_drop]
      congr 1
      omega
    · rw [if_neg inLeaf]
      obtain agrees | covered := known
      · exact agrees i lower upper inside
      · have last := (Bool.and_eq_true _ _ ▸ covered : _ ∧ _).2
        have below : c < chunks (verified.leaf.offset + verified.leaf.data.length) :=
          of_decide_eq_true last
        rw [length, start] at below
        unfold chunks at below
        omega

theorem eq_of_agrees (short : data.length ≤ content.length)
    (all : ∀ c < chunks content.length, Agrees data content c) : data = content := by
  apply List.ext_getElem?
  intro i
  by_cases inside : i < content.length
  · have chunk : i / 1024 < chunks content.length := by
      unfold chunks
      omega
    exact all (i / 1024) chunk i (by omega) (by omega) inside
  · rw [List.getElem?_eq_none (by omega), List.getElem?_eq_none (by omega)]

end Files

section Runs

variable {Hash : Type} [DecidableEq Hash] {blob : Hash → Bytes} {iroh : Iroh} {ctx : Ctx Hash}
  {data content : Bytes}

/-- A bitfield knows nothing yet, or the size of the blob; the chunks that it has agree. -/
structure SoundBits (content data : Bytes) (bitfield : Bitfield) : Prop where
  size : bitfield = .empty ∨ bitfield.size = content.length
  agrees : ∀ c, bitfield.ranges c = true → Agrees data content c

def SoundEntry (iroh : Iroh) (content : Bytes) (files : Option Files) : Option Entry → Prop
  | none => files = none
  | some ⟨_, .complete size⟩ => files = some ⟨content, none⟩ ∧ size = content.length
  | some ⟨_, .partialBlob _ bitfield⟩ => ∃ data sidecar, files = some ⟨data, some sidecar⟩ ∧
    data.length ≤ content.length ∧ SoundBits content data bitfield ∧
      SoundBits content data (Ctx.resumed iroh (some sidecar)).2

structure Sound (iroh : Iroh) (blob : Hash → Bytes) (ctx : Ctx Hash) : Prop where
  entries : ∀ hash, SoundEntry iroh (blob hash) (ctx.files hash) (ctx.entries hash)
  fresh : ∀ hash entry, ctx.entries hash = some entry → entry.id < ctx.nextId
  imports : ∀ task ∈ ctx.imports, task.entry < ctx.nextId ∧ task.size = (blob task.hash).length ∧
    ∀ size bitfield, ctx.entries task.hash = some ⟨task.entry, .partialBlob size bitfield⟩ →
      size = task.size

theorem SoundBits.empty (content data : Bytes) : SoundBits content data .empty where
  size := .inl rfl
  agrees _ impossible := (nomatch impossible)

theorem SoundBits.resumed (documented : iroh.Documented) {bitfield : Bitfield}
    (sound : SoundBits content data bitfield) :
    SoundBits content data (Ctx.resumed iroh (some (some (.fromBitfield bitfield)))).2 := by
  have size : (Ctx.resumed iroh (some (some (.fromBitfield bitfield)))).2.size = bitfield.size :=
    documented.size_new _ _
  have ranges := documented.ranges_new bitfield.ranges bitfield.size
  obtain rfl | known := sound.size
  · refine ⟨.inl ?_, fun c there => ?_⟩
    · have nothing : (Ctx.resumed iroh (some (some (.fromBitfield .empty)))).2.ranges =
          Bitfield.empty.ranges := by
        funext c
        refine Bool.eq_false_iff.mpr fun there => ?_
        obtain impossible | ⟨sized, -⟩ := ranges c there
        · cases impossible
        · exact sized rfl
      calc (Ctx.resumed iroh (some (some (.fromBitfield .empty)))).2
          = ⟨(Ctx.resumed iroh (some (some (.fromBitfield .empty)))).2.ranges,
              (Ctx.resumed iroh (some (some (.fromBitfield .empty)))).2.size⟩ := rfl
        _ = .empty := by rw [nothing, size]
    · obtain impossible | ⟨sized, -⟩ := ranges c there
      · cases impossible
      · exact absurd rfl sized
  · refine ⟨.inr (size.trans known), fun c there => ?_⟩
    obtain had | ⟨-, behind⟩ := ranges c there
    · exact sound.agrees c had
    · exact agrees_of_chunks_le (known ▸ behind)

theorem SoundBits.leaf (documented : iroh.Documented) {bitfield : Bitfield}
    (sound : SoundBits content data bitfield) (verified : VerifiedLeaf content) :
    let later := iroh.update bitfield (iroh.new (chunkRange verified.leaf) content.length)
    later.size = content.length ∧
      SoundBits content (writeAt data verified.leaf.offset verified.leaf.data) later := by
  intro later
  have added (c : Nat) (there : (iroh.new (chunkRange verified.leaf) content.length).ranges c = true) :
      Agrees (writeAt data verified.leaf.offset verified.leaf.data) content c := by
    obtain covered | ⟨-, behind⟩ := documented.ranges_new _ _ c there
    · exact agrees_writeAt verified (.inr covered)
    · exact agrees_of_chunks_le behind
  have size : later.size = content.length := by
    obtain rfl | known := sound.size
    · exact (congrArg Bitfield.size (documented.neutral _ _)).trans (documented.size_new _ _)
    · obtain old | new := documented.size_update bitfield
        (iroh.new (chunkRange verified.leaf) content.length)
      · exact old.trans known
      · exact new.trans (documented.size_new _ _)
  refine ⟨size, .inr size, fun c there => ?_⟩
  obtain old | new | ⟨-, behind⟩ := documented.ranges_update _ _ c there
  · exact agrees_writeAt verified (.inl (sound.agrees c old))
  · exact added c new
  · exact agrees_of_chunks_le (size ▸ behind)

omit [DecidableEq Hash] in
theorem empty_sound : Sound iroh blob (Ctx.empty : Ctx Hash) where
  entries _ := rfl
  fresh _ _ impossible := (nomatch impossible)
  imports _ impossible := (nomatch impossible)

theorem Sound.update (sound : Sound iroh blob ctx) (hash : Hash) {files : Option Files}
    {entry : Option Entry} {nextId : Nat} (later : ctx.nextId ≤ nextId)
    (entries : SoundEntry iroh (blob hash) files entry)
    (fresh : ∀ known, entry = some known → known.id < nextId)
    (imports : ∀ task ∈ ctx.imports, task.hash = hash → ∀ size bitfield,
      entry = some ⟨task.entry, .partialBlob size bitfield⟩ → size = task.size) :
    Sound iroh blob { ctx with
      files := Function.update ctx.files hash files
      entries := Function.update ctx.entries hash entry
      nextId := nextId } where
  entries other := by
    by_cases same : other = hash
    · subst same
      simp only [Function.update_self]
      exact entries
    · simp only [Function.update_of_ne same]
      exact sound.entries other
  fresh other known found := by
    by_cases same : other = hash
    · subst same
      simp only [Function.update_self] at found
      exact fresh known found
    · simp only [Function.update_of_ne same] at found
      exact (sound.fresh other known found).trans_le later
  imports task member := by
    obtain ⟨old, size, told⟩ := sound.imports task member
    refine ⟨old.trans_le later, size, fun known bitfield found => ?_⟩
    by_cases same : task.hash = hash
    · simp only [same, Function.update_self] at found
      exact imports task member same known bitfield found
    · simp only [Function.update_of_ne same] at found
      exact told known bitfield found

theorem importFromFile_sound (sound : Sound iroh blob ctx) (hash : Hash) :
    Sound iroh blob (ctx.importFromFile hash (blob hash)) := by
  unfold Ctx.importFromFile
  have own : SoundEntry iroh (blob hash) (some ⟨blob hash, none⟩)
      (some ⟨ctx.nextId, .complete (blob hash).length⟩) := ⟨rfl, rfl⟩
  split
  · exact sound
  · rename_i id size bitfield found
    refine sound.update hash (le_refl _) ⟨rfl, rfl⟩ ?_ ?_
    · rintro _ ⟨⟩
      exact (sound.fresh hash _ found : id < ctx.nextId)
    · intro _ _ _ _ _ impossible
      cases congrArg Entry.state (Option.some.inj impossible)
  · refine sound.update hash (Nat.le_succ _) own ?_ ?_
    · rintro _ ⟨⟩
      exact Nat.lt_succ_self _
    · intro _ _ _ _ _ impossible
      cases congrArg Entry.state (Option.some.inj impossible)

theorem getOrCreateEntry_sound (sound : Sound iroh blob ctx) (hash : Hash) :
    Sound iroh blob (ctx.getOrCreateEntry iroh hash).2 ∧
      (ctx.getOrCreateEntry iroh hash).2.entries hash =
        some (ctx.getOrCreateEntry iroh hash).1 := by
  unfold Ctx.getOrCreateEntry
  cases found : ctx.entries hash with
  | some entry => exact ⟨sound, found⟩
  | none =>
    have absent := sound.entries hash
    rw [found] at absent
    have files : ctx.files hash = none := absent
    simp only [files]
    refine ⟨sound.update hash (Nat.le_succ _) ?_ ?_ ?_, Function.update_self _ _ _⟩
    · exact ⟨[], none, rfl, Nat.zero_le _, .empty _ _, .empty _ _⟩
    · rintro _ ⟨⟩
      exact Nat.lt_succ_self _
    · intro task member _ _ _ opened
      have own : ctx.nextId = task.entry := congrArg Entry.id (Option.some.inj opened)
      exact absurd (sound.imports task member).1 (own ▸ lt_irrefl _)

omit [DecidableEq Hash] in
theorem Sound.addImport (sound : Sound iroh blob ctx) {hash : Hash} {id : Nat}
    (known : id < ctx.nextId) (told : ∀ size bitfield,
      ctx.entries hash = some ⟨id, .partialBlob size bitfield⟩ → size = (blob hash).length) :
    Sound iroh blob { ctx with imports := ⟨hash, id, (blob hash).length⟩ :: ctx.imports } where
  entries := sound.entries
  fresh := sound.fresh
  imports task member := by
    obtain rfl | old := List.mem_cons.mp member
    · exact ⟨known, rfl, told⟩
    · exact sound.imports task old

theorem importBao_sound (sound : Sound iroh blob ctx) (hash : Hash) :
    Sound iroh blob (ctx.importBao iroh hash (blob hash).length) := by
  obtain ⟨opened, there⟩ := getOrCreateEntry_sound sound hash
  unfold Ctx.importBao
  generalize ctx.getOrCreateEntry iroh hash = made at opened there ⊢
  obtain ⟨entry, ctx⟩ := made
  dsimp only at opened there ⊢
  have known := opened.fresh hash entry there
  have old := opened.entries hash
  rw [there] at old
  obtain ⟨id, state⟩ := entry
  have told (later : EntryState) (entries : SoundEntry iroh (blob hash) (ctx.files hash)
      (some ⟨id, later⟩)) (size : ∀ size bitfield, later = .partialBlob size bitfield →
        size = (blob hash).length) :
      Sound iroh blob { ctx with
        entries := Function.update ctx.entries hash (some ⟨id, later⟩)
        imports := ⟨hash, id, (blob hash).length⟩ :: ctx.imports } := by
    have updated := opened.update hash (le_refl _) entries
      (fun _ same => Option.some.inj same ▸ known) fun task member same size' bitfield found => by
        have state := congrArg Entry.state (Option.some.inj found)
        rw [size size' bitfield state, (opened.imports task member).2.1, same]
    rw [Function.update_eq_self] at updated
    refine updated.addImport known fun size' bitfield found => ?_
    dsimp only at found
    rw [Function.update_self] at found
    exact size size' bitfield (congrArg Entry.state (Option.some.inj found))
  cases state with
  | complete size => exact told (.complete size) old fun _ _ impossible => (nomatch impossible)
  | partialBlob size bitfield =>
    exact told (.partialBlob (blob hash).length bitfield) old fun _ _ same =>
      (EntryState.partialBlob.inj same).1.symm

theorem importLeaf_sound (documented : iroh.Documented) (sound : Sound iroh blob ctx)
    {task : ImportTask Hash} (running : task ∈ ctx.imports)
    (verified : VerifiedLeaf (blob task.hash)) :
    Sound iroh blob (ctx.importLeaf iroh task verified.leaf) := by
  unfold Ctx.importLeaf
  split
  · rename_i id size bitfield files found stored
    split
    · rename_i own
      subst own
      obtain ⟨-, named, told⟩ := sound.imports task running
      have sized := told size bitfield found
      have old := sound.entries task.hash
      rw [found, stored] at old
      obtain ⟨data, sidecar, same, short, bits, -⟩ := old
      obtain rfl := Option.some.inj same
      obtain ⟨knows, later⟩ := bits.leaf documented verified
      rw [← named] at knows later
      have grown : (writeAt data verified.leaf.offset verified.leaf.data).length ≤
          (blob task.hash).length := by
        rw [length_writeAt]
        have leaf : verified.leaf.offset + verified.leaf.data.length ≤ (blob task.hash).length := by
          unfold VerifiedLeaf.leaf
          rw [List.length_take, List.length_drop]
          dsimp only
          have inside := verified.inside
          omega
        omega
      have keepsId (state : EntryState) (known : Entry) (same : some ⟨task.entry, state⟩ = some known) :
          known.id < ctx.nextId := by
        rw [← Option.some.inj same]
        exact (sound.fresh task.hash _ found : task.entry < ctx.nextId)
      dsimp only
      split
      · rename_i full
        have all := documented.ranges_isComplete _ full
        rw [knows] at all
        have content := eq_of_agrees grown fun c inside =>
          later.agrees c (all c (by rw [named]; exact inside))
        refine sound.update task.hash (le_refl _) ?_ (keepsId _) ?_
        · exact ⟨by rw [content], sized.trans named⟩
        · intro _ _ _ _ _ impossible
          cases congrArg Entry.state (Option.some.inj impossible)
      · refine sound.update task.hash (le_refl _) ?_ (keepsId _) ?_
        · exact ⟨_, _, rfl, grown, later, later.resumed documented⟩
        · intro other member same size' bitfield' again
          have entry := Option.some.inj again
          have state := EntryState.partialBlob.inj (congrArg Entry.state entry)
          rw [← state.1, sized, named, (sound.imports other member).2.1, same]
    · exact sound
  · exact sound

theorem deleteBlob_sound (sound : Sound iroh blob ctx) (hash : Hash) :
    Sound iroh blob (ctx.deleteBlob hash) :=
  sound.update hash (le_refl _) rfl (fun _ impossible => (nomatch impossible))
    fun _ _ _ _ _ impossible => (nomatch impossible)

omit [DecidableEq Hash] in
theorem respawn_sound (sound : Sound iroh blob ctx) : Sound iroh blob (ctx.respawn iroh) where
  entries hash := by
    have old := sound.entries hash
    unfold Ctx.respawn
    dsimp only
    cases stored : ctx.files hash with
    | none => rfl
    | some files =>
      rw [stored] at old
      cases found : ctx.entries hash with
      | none =>
        rw [found] at old
        cases old
      | some entry =>
        rw [found] at old
        obtain ⟨id, state⟩ := entry
        cases state with
        | complete size =>
          obtain ⟨same, -⟩ := old
          obtain rfl := Option.some.inj same
          exact ⟨rfl, rfl⟩
        | partialBlob size bitfield =>
          obtain ⟨data, sidecar, same, short, -, resumes⟩ := old
          obtain rfl := Option.some.inj same
          exact ⟨data, sidecar, rfl, short, resumes, resumes⟩
  fresh hash entry found := by
    obtain ⟨files, -, rfl⟩ := Option.map_eq_some_iff.mp found
    exact Nat.lt_succ_self _
  imports _ impossible := (nomatch impossible)

/-- The size that a verified import is told is the blob's. -/
def Honest (blob : Hash → Bytes) : Command Hash blob → Prop
  | .importBao hash size => size = (blob hash).length
  | _ => True

theorem step_sound (documented : iroh.Documented) (command : Command Hash blob)
    (honest : Honest blob command) (sound : Sound iroh blob ctx) :
    Sound iroh blob (step iroh command ctx) := by
  cases command with
  | importBytes hash => exact importFromFile_sound sound hash
  | importBao hash size =>
    obtain rfl := honest
    exact importBao_sound sound hash
  | leaf task verified =>
    rw [step]
    split
    · rename_i runs
      obtain ⟨running, member, same⟩ := List.any_eq_true.mp runs
      have equal : running = task := by
        obtain ⟨hash, entry, size⟩ := running
        obtain ⟨hash', entry', size'⟩ := task
        simp only [Bool.and_eq_true, decide_eq_true_eq] at same
        obtain ⟨⟨rfl, rfl⟩, rfl⟩ := same
        rfl
      exact importLeaf_sound documented sound (equal ▸ member) verified
    · exact sound
  | observe hash => exact (getOrCreateEntry_sound sound hash).1
  | deleteBlobs hashes =>
    clear honest
    rw [step]
    induction hashes generalizing ctx with
    | nil => exact sound
    | cons hash rest ih => exact ih (deleteBlob_sound sound hash)
  | respawn => exact respawn_sound sound

/-- Every run whose verified imports are told the right sizes keeps the entries sound. -/
theorem runAll_sound (documented : iroh.Documented) {commands : List (Command Hash blob)}
    (honest : ∀ command ∈ commands, Honest blob command) (sound : Sound iroh blob ctx) :
    Sound iroh blob (runAll (step iroh) commands ctx) := by
  induction commands generalizing ctx with
  | nil => exact sound
  | cons command rest ih =>
    exact ih (fun later member => honest later (List.mem_cons_of_mem _ member))
      (step_sound documented command (honest command List.mem_cons_self) sound)

end Runs

section Exports

variable {content : Bytes} {bitfield : Bitfield} {file : BlobFile}

def sent (leaves : List Leaf) : List (UInt8 × Nat) :=
  leaves.flatMap fun leaf => leaf.data.zipIdx leaf.offset

variable {offset : Nat}

theorem readExactAt_eq {len : Nat} {read : { bytes : Bytes // bytes.length = len }}
    (reads : file.readExactAt offset len = some read) :
    read.val = (file.bytes.drop offset).take len := by
  unfold BlobFile.readExactAt at reads
  split at reads
  · rw [← Option.some.inj reads]
  · cases reads

theorem window_congr {data : Bytes} {stop : Nat}
    (agree : ∀ i, offset ≤ i → i < stop → data[i]? = content[i]?) :
    (data.drop offset).take (stop - offset) = (content.drop offset).take (stop - offset) := by
  apply List.ext_getElem?
  intro i
  by_cases inside : i < stop - offset
  · rw [List.getElem?_take_of_lt inside, List.getElem?_take_of_lt inside, List.getElem?_drop,
      List.getElem?_drop]
    exact agree (offset + i) (by omega) (by omega)
  · rw [List.getElem?_take_eq_none (by omega), List.getElem?_take_eq_none (by omega)]

theorem window_append (content : Bytes) {next stop : Nat} (ahead : offset ≤ next)
    (within : next ≤ stop) (inside : stop ≤ content.length) :
    ((content.drop offset).take (stop - offset)).zipIdx offset =
      ((content.drop offset).take (next - offset)).zipIdx offset ++
        ((content.drop next).take (stop - next)).zipIdx next := by
  have cut : stop - offset = (next - offset) + (stop - next) := by omega
  have length : ((content.drop offset).take (next - offset)).length = next - offset := by
    rw [List.length_take, List.length_drop]
    omega
  rw [cut, List.take_add, List.drop_drop, List.zipIdx_append, length, Nat.add_sub_cancel' ahead]

theorem sendRange_sent {fuel stop : Nat} (enough : stop - offset < fuel)
    (ahead : offset ≤ stop) (inside : stop ≤ content.length)
    (agree : ∀ i, offset ≤ i → i < stop → file.bytes[i]? = content[i]?)
    (ended : (sendRange file stop fuel offset).2 = none) :
    sent (sendRange file stop fuel offset).1 =
      ((content.drop offset).take (stop - offset)).zipIdx offset := by
  induction fuel generalizing offset with
  | zero => omega
  | succ fuel ih =>
    unfold sendRange at ended ⊢
    dsimp only at ended ⊢
    cases reads : file.readExactAt offset (min (offset + 1024) stop - offset) with
    | none =>
      rw [reads] at ended
      cases ended
    | some read =>
      rw [reads] at ended
      dsimp only at ended ⊢
      have bytes := (readExactAt_eq reads).trans
        (window_congr fun i lower upper => agree i lower (by omega))
      by_cases last : stop ≤ min (offset + 1024) stop
      · rw [if_pos last]
        have whole : min (offset + 1024) stop = stop := by omega
        simp only [sent, List.flatMap_cons, List.flatMap_nil, List.append_nil]
        rw [bytes, whole]
      · rw [if_neg last] at ended ⊢
        have rest := ih (by omega) (by omega) (fun i lower upper => agree i (by omega) upper) ended
        rw [window_append content (by omega : offset ≤ min (offset + 1024) stop) (by omega) inside,
          ← rest, ← bytes]
        rfl

theorem clip_window (range : ByteRange) :
    ((content.drop (range.clip content.length).1).take
        ((range.clip content.length).2 - (range.clip content.length).1)).zipIdx
          (range.clip content.length).1 =
      (range.of content).zipIdx range.start := by
  by_cases there : range.start ≤ content.length
  · cases range with
    | range start stop nonempty =>
      have lo : min content.length start = start := Nat.min_eq_right there
      simp only [ByteRange.clip, ByteRange.of, ByteRange.start, lo]
      congr 1
      rw [List.take_eq_take_iff, List.length_drop]
      omega
    | rangeFrom start =>
      have lo : min content.length start = start := Nat.min_eq_right there
      simp only [ByteRange.clip, ByteRange.of, ByteRange.start, lo]
      rw [List.take_of_length_le (by rw [List.length_drop])]
  · have none : range.of content = [] := by
      cases range with
      | range start stop nonempty =>
        exact (congrArg (List.take _) (List.drop_eq_nil_of_le (not_le.mp there).le)).trans
          List.take_nil
      | rangeFrom start => exact List.drop_eq_nil_of_le (not_le.mp there).le
    have lo : (range.clip content.length).1 = content.length := by
      cases range with
      | range start stop nonempty => exact Nat.min_eq_left (not_le.mp there).le
      | rangeFrom start => exact Nat.min_eq_left (not_le.mp there).le
    rw [none, lo, List.drop_length, List.take_nil]
    rfl

theorem clip_spec (range : ByteRange) (size : Nat) :
    (range.clip size).1 ≤ (range.clip size).2 ∧ (range.clip size).2 ≤ size := by
  cases range with
  | range start stop nonempty =>
    simp only [ByteRange.clip]
    omega
  | rangeFrom start =>
    simp only [ByteRange.clip]
    omega

theorem sendRanges_sent (size : bitfield.size = content.length)
    (agrees : ∀ c, bitfield.ranges c = true → Agrees file.bytes content c) (ranges : List ByteRange)
    (ended : (sendRanges bitfield file ranges).2 = none) :
    sent (sendRanges bitfield file ranges).1 =
      ranges.flatMap fun range => (range.of content).zipIdx range.start := by
  induction ranges with
  | nil => rfl
  | cons range rest ih =>
    obtain ⟨ahead, inside⟩ := clip_spec range content.length
    unfold sendRanges at ended ⊢
    rw [size] at ended ⊢
    dsimp only at ended ⊢
    by_cases missing : (!present bitfield (range.clip content.length).1
        (range.clip content.length).2) = true
    · rw [if_pos missing] at ended
      cases ended
    · rw [if_neg missing] at ended ⊢
      have agree : ∀ i, (range.clip content.length).1 ≤ i → i < (range.clip content.length).2 →
          file.bytes[i]? = content[i]? := by
        intro i lower upper
        have there : present bitfield (range.clip content.length).1
            (range.clip content.length).2 = true := by
          simpa using missing
        unfold present at there
        rw [if_pos (by omega), List.all_eq_true] at there
        refine agrees (i / 1024) (there (i / 1024) ?_) i (by omega) (by omega) (by omega)
        rw [List.mem_range'_1]
        unfold chunks
        omega
      have head := sendRange_sent (Nat.lt_succ_self _) ahead inside agree
      rw [clip_window] at head
      generalize sendRange file (range.clip content.length).2
        ((range.clip content.length).2 - (range.clip content.length).1 + 1)
        (range.clip content.length).1 = result at ended head ⊢
      obtain ⟨leaves, error⟩ := result
      cases error with
      | some error => cases ended
      | none =>
        dsimp only at ended ⊢
        rw [List.flatMap_cons, ← ih ended, ← head rfl]
        exact List.flatMap_append

theorem sendRange_zero (file : BlobFile) :
    (sendRange file 0 1 0 = ([], some .unreadable) ∧ file.broken ≠ []) ∨
      sendRange file 0 1 0 = ([⟨0, []⟩], none) := by
  rw [sendRange]
  cases reads : file.readExactAt 0 (min (0 + 1024) 0 - 0) with
  | none =>
    refine .inl ⟨rfl, fun works => ?_⟩
    unfold BlobFile.readExactAt at reads
    have readable : 0 + (min (0 + 1024) 0 - 0) ≤ file.bytes.length ∧ 0 ∉ file.broken :=
      ⟨Nat.zero_le _, works ▸ List.not_mem_nil⟩
    rw [dif_pos readable] at reads
    cases reads
  | some read =>
    have nothing : read.val = [] := List.length_eq_zero_iff.mp read.property
    refine .inr ?_
    simp only [nothing, Nat.zero_le, if_true]

theorem sendRanges_unsized (size : bitfield.size = 0) (ranges : List ByteRange) :
    sent (sendRanges bitfield file ranges).1 = [] ∧
      (file.broken = [] → (sendRanges bitfield file ranges).2 = none) := by
  induction ranges with
  | nil => exact ⟨rfl, fun _ => rfl⟩
  | cons range rest ih =>
    have clipped : range.clip 0 = (0, 0) := by
      cases range with
      | range start stop nonempty => rw [ByteRange.clip, Nat.zero_min, Nat.zero_min]
      | rangeFrom start => rw [ByteRange.clip, Nat.zero_min]
    unfold sendRanges
    rw [size, clipped]
    have there : (!present bitfield 0 0) = false := rfl
    simp only [there, Bool.false_eq_true, if_false]
    obtain ⟨fails, broken⟩ | sends := sendRange_zero file
    · rw [fails]
      exact ⟨rfl, fun works => absurd works broken⟩
    · rw [sends]
      exact ih

end Exports

section Rightness

variable {Hash : Type} [DecidableEq Hash] {blob : Hash → Bytes} {iroh : Iroh}

/-- What ends without an error has sent the bytes of the ranges, in order. -/
def ExportsRight (iroh : Iroh) (blob : Hash → Bytes) (ctx : Ctx Hash) (hash : Hash)
    (ranges : List ByteRange) : Prop :=
  ∀ broken, (exportRanges iroh ctx hash ranges broken).2 = none →
    sent (exportRanges iroh ctx hash ranges broken).1 =
      ranges.flatMap fun range => (range.of (blob hash)).zipIdx range.start

/-- A partial entry knows the size of its blob, or all the ranges are behind its end. -/
def Sized (blob : Hash → Bytes) (ctx : Ctx Hash) (hash : Hash) (ranges : List ByteRange) : Prop :=
  ∀ id size bitfield, ctx.entries hash = some ⟨id, .partialBlob size bitfield⟩ →
    bitfield.size = (blob hash).length ∨ ∀ range ∈ ranges, (blob hash).length ≤ range.start

theorem of_eq_nil_iff (range : ByteRange) (content : Bytes) :
    (range.of content).zipIdx range.start = [] ↔ content.length ≤ range.start := by
  rw [List.zipIdx_eq_nil_iff, ← List.length_eq_zero_iff]
  cases range with
  | range start stop nonempty =>
    simp only [ByteRange.of, ByteRange.start, List.length_take, List.length_drop]
    omega
  | rangeFrom start =>
    simp only [ByteRange.of, ByteRange.start, List.length_drop]
    omega

omit [DecidableEq Hash] in
theorem Sound.right_iff_sized (documented : iroh.Documented) {ctx : Ctx Hash}
    (sound : Sound iroh blob ctx) (hash : Hash) (ranges : List ByteRange) :
    ExportsRight iroh blob ctx hash ranges ↔ Sized blob ctx hash ranges := by
  have entry := sound.entries hash
  unfold ExportsRight Sized exportRanges
  cases found : ctx.entries hash with
  | none => exact ⟨fun _ _ _ _ impossible => (nomatch impossible), fun _ _ failed => (nomatch failed)⟩
  | some entry' =>
    rw [found] at entry
    obtain ⟨id, state⟩ := entry'
    cases state with
    | complete size =>
      obtain ⟨files, length⟩ := entry
      rw [files]
      constructor
      · intro _ _ _ _ impossible
        cases congrArg Entry.state (Option.some.inj impossible)
      · intro _ broken ended
        exact sendRanges_sent ((documented.size_complete size).trans length)
          (fun c _ => agrees_self (blob hash) c) ranges ended
    | partialBlob size bitfield =>
      obtain ⟨data, sidecar, files, -, bits, -⟩ := entry
      rw [files]
      have known : bitfield.size = (blob hash).length → ∀ broken,
          (sendRanges bitfield ⟨data, broken⟩ ranges).2 = none →
            sent (sendRanges bitfield ⟨data, broken⟩ ranges).1 =
              ranges.flatMap fun range => (range.of (blob hash)).zipIdx range.start :=
        fun length broken ended => sendRanges_sent length bits.agrees ranges ended
      constructor
      · intro right id' size' bitfield' same
        have state := EntryState.partialBlob.inj (congrArg Entry.state (Option.some.inj same))
        rw [← state.2]
        obtain rfl | length := bits.size
        · obtain ⟨nothing, ends⟩ := @sendRanges_unsized .empty ⟨data, []⟩ rfl ranges
          refine .inr fun range member => (of_eq_nil_iff range (blob hash)).mp ?_
          exact List.flatMap_eq_nil_iff.mp ((right [] (ends rfl)).symm.trans nothing) range member
        · exact .inl length
      · intro sized broken ended
        obtain rfl | length := bits.size
        · obtain length | behind := sized id size .empty rfl
          · exact known length broken ended
          · refine (@sendRanges_unsized .empty ⟨data, broken⟩ rfl ranges).1.trans (Eq.symm ?_)
            exact List.flatMap_eq_nil_iff.mpr fun range member =>
              (of_eq_nil_iff range (blob hash)).mpr (behind range member)
        · exact known length broken ended

/-- After every run whose verified imports were told the right sizes, the store exports right exactly
where a partial entry knows the size of its blob, or nothing is asked of it. -/
theorem exports_right_iff (documented : iroh.Documented) {commands : List (Command Hash blob)}
    (honest : ∀ command ∈ commands, Honest blob command) (hash : Hash) (ranges : List ByteRange) :
    ExportsRight iroh blob (runAll (step iroh) commands .empty) hash ranges ↔
      Sized blob (runAll (step iroh) commands .empty) hash ranges :=
  (runAll_sound documented honest empty_sound).right_iff_sized documented hash ranges

end Rightness

def oneSize : Iroh where
  new ranges size := if size = 0 then ⟨ranges, size⟩
    else ⟨fun c => ranges c || (ranges (chunks size - 1) && decide (chunks size ≤ c)), size⟩
  complete size := ⟨fun _ => true, size⟩
  update bitfield update :=
    let size := if bitfield.size = 0 then update.size else bitfield.size
    let ranges := fun c => bitfield.ranges c || update.ranges c
    if size = 0 then ⟨ranges, size⟩
    else ⟨fun c => ranges c || (ranges (chunks size - 1) && decide (chunks size ≤ c)), size⟩
  isComplete bitfield := (List.range (chunks bitfield.size)).all bitfield.ranges

theorem oneSize_documented : oneSize.Documented where
  size_new ranges size := by
    unfold oneSize
    dsimp only
    split <;> rfl
  ranges_new ranges size c there := by
    unfold oneSize at there
    dsimp only at there
    split at there
    · exact .inl there
    · rename_i sized
      simp only [Bool.or_eq_true, Bool.and_eq_true, decide_eq_true_eq] at there
      exact there.imp id fun opened => ⟨sized, opened.2⟩
  size_complete _ := rfl
  neutral ranges size := by
    unfold oneSize Bitfield.empty
    dsimp only
    by_cases unsized : size = 0
    · simp only [if_pos unsized, if_true, Bool.false_or]
    · simp only [if_neg unsized, if_true, Bool.false_or]
      congr 1
      funext c
      cases ranges c with
      | true => simp
      | false =>
        by_cases behind : chunks size ≤ c
        · cases ranges (chunks size - 1) with
          | true => simp [behind]
          | false => simp [behind]
        · simp only [decide_eq_false behind, Bool.and_false, Bool.or_false]
  size_update bitfield update := by
    unfold oneSize
    dsimp only
    by_cases unsized : bitfield.size = 0
    · rw [if_pos unsized]
      split <;> exact .inr rfl
    · rw [if_neg unsized]
      split <;> exact .inl rfl
  ranges_update bitfield update c there := by
    unfold oneSize at there ⊢
    dsimp only at there ⊢
    generalize (if bitfield.size = 0 then update.size else bitfield.size) = size at there ⊢
    split at there
    · rename_i unsized
      rw [if_pos unsized]
      exact (Bool.or_eq_true _ _ ▸ there : _ ∨ _).imp id .inl
    · rename_i sized
      rw [if_neg sized]
      simp only [Bool.or_eq_true, Bool.and_eq_true, decide_eq_true_eq] at there
      obtain (old | new) | ⟨-, behind⟩ := there
      · exact .inl old
      · exact .inr (.inl new)
      · exact .inr (.inr ⟨sized, behind⟩)
  ranges_isComplete bitfield full c inside := List.all_eq_true.mp full c (List.mem_range.mpr inside)

def onlyBlob : Unit → Bytes := fun _ => [1, 2, 3]

/-- A blob that was imported is exported. -/
theorem imported_blob_exported :
    exportRanges oneSize (runAll (step oneSize) [(.importBytes () : Command Unit onlyBlob)] .empty) ()
        [.rangeFrom 1] [] = ([⟨1, [2, 3]⟩], none) ∧
      ExportsRight oneSize onlyBlob
        (runAll (step oneSize) [(.importBytes () : Command Unit onlyBlob)] .empty) ()
        [.rangeFrom 1] := by
  refine ⟨by decide, (exports_right_iff oneSize_documented ?_ () [.rangeFrom 1]).mpr ?_⟩
  · intro command member
    obtain rfl := List.mem_singleton.mp member
    trivial
  · intro id size bitfield found
    cases congrArg Entry.state (Option.some.inj found)

/-- A blob that was only observed is exported as if it were empty. -/
theorem observed_blob_exported_empty :
    oneSize.Documented ∧
      exportRanges oneSize (runAll (step oneSize) [(.observe () : Command Unit onlyBlob)] .empty) ()
        [.rangeFrom 1] [] = ([⟨0, []⟩], none) ∧
      ¬ ExportsRight oneSize onlyBlob
        (runAll (step oneSize) [(.observe () : Command Unit onlyBlob)] .empty) () [.rangeFrom 1] := by
  have sends : exportRanges oneSize
      (runAll (step oneSize) [(.observe () : Command Unit onlyBlob)] .empty) () [.rangeFrom 1] [] =
        ([⟨0, []⟩], none) := by decide
  refine ⟨oneSize_documented, sends, fun right => ?_⟩
  have bytes := right [] (congrArg Prod.snd sends)
  rw [sends] at bytes
  revert bytes
  decide

end Tomb.Midden.Blobs
