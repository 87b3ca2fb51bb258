import Std.Data.String.ToNat
import Tomb.Lib.Spacing
import Tomb.Grimoire.Maintenance.Moves
import Tomb.Grimoire.Maintenance.Rerun

/-! What each step of a move leaves true in a reorganization that is run again, if no file lies in
its way. -/
namespace Tomb.Grimoire.Maintenance.Reorganize
open Tomb.Lib

section Paths

theorem replaced_eq_escaped (text : Path) :
    replaceChar '_' ['\\', '_'] (replaceChar '%' ['\\', '%']
      (replaceChar '\\' ['\\', '\\'] text)) = Sqlite.escaped text := by
  rw [replaceChar, replaceChar, replaceChar, List.flatMap_assoc, List.flatMap_assoc, Sqlite.escaped]
  congr 1
  funext c
  by_cases back : c = '\\'
  · subst back
    decide
  · by_cases percent : c = '%'
    · subst percent
      decide
    · by_cases underscore : c = '_'
      · subst underscore
        decide
      · simp [back, percent, underscore]

theorem likePattern_eq (dir : Path) :
    likePattern dir = Sqlite.escaped (trimEndSlashes dir ++ ['/']) ++ ['%'] := by
  rw [likePattern, replaced_eq_escaped, Sqlite.escaped, Sqlite.escaped, List.flatMap_append,
    List.append_assoc]
  rfl

theorem slashed_of_plain {path : Path} (plain : '\\' ∉ path) : slashed path = path := by
  refine (List.map_congr_left fun c member => ?_).trans (List.map_id path)
  have other : c ≠ '\\' := fun same => plain (same ▸ member)
  rw [if_neg other, id]

theorem slashed_numbered_injective (base : RelativePath) :
    Function.Injective fun n => slashed (base.numbered n) := by
  intro m n same
  have digits (n : Nat) : slashed (toString n).toList = (toString n).toList := by
    refine slashed_of_plain fun member => ?_
    have member : '\\' ∈ Nat.toDigits 10 n := by simpa [toString, Nat.repr] using member
    have digit := Nat.isDigit_of_mem_toDigits (by decide) (by decide) member
    exact absurd digit (by decide)
  have same : slashed (toString m).toList = slashed (toString n).toList := by
    simpa [RelativePath.numbered, RelativePath.render, slashed] using same
  rw [digits, digits] at same
  exact Nat.repr_injective (String.toList_injective same)

theorem uniquifyPath_free (base : RelativePath) (attempted : List Path) :
    slashed (uniquifyPath base attempted) ∉ attempted := by
  unfold uniquifyPath
  split
  · assumption
  · let numbers := (List.range (attempted.length + 1)).map fun n => base.numbered (n + 2)
    cases found : numbers.find? (slashed · ∉ attempted) with
    | some path => simpa using List.find?_some found
    | none =>
      have taken : numbers.map slashed ⊆ attempted := by
        intro path member
        obtain ⟨number, listed, rfl⟩ := List.mem_map.mp member
        simpa using List.find?_eq_none.mp found number listed
      have distinct : (numbers.map slashed).Nodup := by
        rw [List.map_map]
        refine List.nodup_range.map fun m n same => ?_
        have next := slashed_numbered_injective base same
        omega
      have length := distinct.length_le_of_subset taken
      rw [List.length_map, List.length_map, List.length_range] at length
      exact absurd length (Nat.not_succ_le_self _)

end Paths

namespace Plan

variable (plan : Plan)

def Inside (path : Path) : Prop := trimEndSlashes plan.targetRoot ++ ['/'] <+: path

instance (path : Path) : Decidable (plan.Inside path) := inferInstanceAs (Decidable (_ <+: _))

structure Arrived (path : Path) : Prop where
  under : plan.underTarget path = true
  inside : plan.Inside path
  listed : Sqlite.like (some '\\') (likePattern plan.targetRoot) path = true

variable {plan}

theorem Arrived.not_candidate {path : Path} (arrived : plan.Arrived path) (kind : Kind) :
    plan.isCandidate kind path = false := by
  rw [isCandidate, arrived.listed, Bool.not_true, Bool.and_false]

theorem inside_destination (some : plan.targetRoot ≠ []) (relative : Path) :
    plan.Inside (plan.destination relative) := by
  unfold Inside Run.destination trimEndSlashes
  split
  · rename_i slash
    obtain none | last := slash
    · exact absurd none some
    · have whole : plan.targetRoot.rdropWhile (· = '/') ++ plan.targetRoot.rtakeWhile (· = '/') =
        plan.targetRoot := List.rdropWhile_append_rtakeWhile
      cases slashes : plan.targetRoot.rtakeWhile (· = '/') with
      | nil =>
        have open_ := List.rtakeWhile_eq_nil_iff.mp slashes some
        rw [List.getLast?_eq_getLast_of_ne_nil some, Option.some.injEq] at last
        exact absurd (decide_eq_true last) open_
      | cons c rest =>
        have slash : c = '/' := by
          have member : c ∈ plan.targetRoot.rtakeWhile (· = '/') := slashes ▸ List.mem_cons_self
          simpa using List.mem_rtakeWhile_imp member
        refine ⟨rest ++ relative, ?_⟩
        rw [slashes, slash] at whole
        nth_rewrite 2 [← whole]
        simp
  · rename_i open_
    have whole : plan.targetRoot.rdropWhile (· = '/') = plan.targetRoot := by
      refine Text.rdropWhile_of_getLast? fun c last => decide_eq_false fun slash => ?_
      exact (not_or.mp open_).2 (slash ▸ last)
    rw [whole]
    exact ⟨relative, by rw [List.append_assoc, List.singleton_append]⟩

theorem arrived_destination (some : plan.targetRoot ≠ []) {relative : Path}
    (noNul : '\x00' ∉ plan.destination relative) : plan.Arrived (plan.destination relative) := by
  have inside := inside_destination some relative
  refine ⟨plan.under_destination relative, inside, ?_⟩
  obtain ⟨rest, split⟩ := inside
  have noNul_start : '\x00' ∉ trimEndSlashes plan.targetRoot ++ ['/'] := fun member =>
    noNul (split ▸ List.mem_append_left _ member)
  rw [likePattern_eq, Sqlite.like_escaped_iff noNul_start, ← split,
    Sqlite.upToNul_append noNul_start]
  exact Sqlite.BeginsNocase.of_prefix (List.prefix_append _ _)

theorem destination_injective : Function.Injective plan.destination := by
  intro a b same
  unfold Run.destination at same
  split at same
  · exact List.append_cancel_left same
  · exact List.tail_eq_of_cons_eq (List.append_cancel_left same)

structure Candidate (plan : Plan) (store : Store) (kind : Kind) (media : Media) (blob : MediaBlob)
    (path : Path) : Prop where
  live : media ∈ store.media kind
  held : blob ∈ store.blobs
  joined : blob.id = media.mediaBlobId
  named : blob.localPath = some path
  listed : plan.isCandidate kind path = true

/-- The files of the candidates are there with the hashes of their rows, no two of their rows name
one file, and none of their paths begins with the text of the target. -/
structure Resumable (plan : Plan) (store : Store) : Prop where
  there : ∀ {kind media blob path}, plan.Candidate store kind media blob path →
    ∃ content, store.disk path = some content ∧
      ∀ blake3, blob.blake3 = some blake3 → plan.hash content = blake3
  apart : ∀ {kind media blob kind' media' blob' path},
    plan.Candidate store kind media blob path → plan.Candidate store kind' media' blob' path →
      blob.id = blob'.id
  clear : ∀ {kind media blob path}, plan.Candidate store kind media blob path →
    plan.underTarget path = false

/-- The file of a song or a video lies inside the target directory. -/
def InTarget (plan : Plan) (store : Store) (kind : Kind) (id : String) : Prop :=
  ∃ media ∈ store.media kind, media.id = id ∧ ∃ blob ∈ store.blobs, blob.id = media.mediaBlobId ∧
    ∃ path ∈ blob.localPath, plan.Inside path

instance (plan : Plan) (store : Store) (kind : Kind) (id : String) :
    Decidable (plan.InTarget store kind id) :=
  inferInstanceAs (Decidable (∃ media ∈ (store.media kind).rows, media.id = id ∧
    ∃ blob ∈ store.blobs.rows, blob.id = media.mediaBlobId ∧
      ∃ path ∈ blob.localPath, plan.Inside path))

def Settled (plan : Plan) (store : Store) (blobId : String) : Prop :=
  ∃ row ∈ store.blobs, row.id = blobId ∧ ∃ path, row.localPath = some path ∧ plan.Arrived path

variable {store origin next : Store} {kind : Kind} {media : Media} {blob : MediaBlob} {path : Path}

theorem mem_listCandidateIds {id : String} : id ∈ plan.listCandidateIds kind store ↔
    ∃ media blob path, media.id = id ∧ plan.Candidate store kind media blob path := by
  simp only [listCandidateIds, List.mem_map, List.mem_filter, Option.any_eq_true,
    Option.bind_eq_some_iff, Table.get_eq_some]
  constructor
  · rintro ⟨media, ⟨row, path, ⟨blob, ⟨held, joined⟩, named⟩, listed⟩, same⟩
    exact ⟨media, blob, path, same, row, held, joined, named, listed⟩
  · rintro ⟨media, blob, path, same, row, held, joined, named, listed⟩
    exact ⟨media, ⟨row, path, ⟨blob, ⟨held, joined⟩, named⟩, listed⟩, same⟩

structure Kept (plan : Plan) (origin store : Store) : Prop where
  media : store.media = origin.media
  rows : ∀ row ∈ store.blobs, row ∈ origin.blobs ∨
    ∃ path, row.localPath = some path ∧ plan.Arrived path
  ids : ∀ row ∈ origin.blobs, ∃ now ∈ store.blobs, now.id = row.id
  files : ∀ {kind media blob path}, plan.Candidate origin kind media blob path →
    plan.Settled store blob.id ∨ store.disk path = origin.disk path

theorem Kept.row (kept : plan.Kept origin store)
    (candidate : plan.Candidate origin kind media blob path) :
    plan.Settled store blob.id ∨ blob ∈ store.blobs := by
  obtain ⟨now, held, same⟩ := kept.ids blob candidate.held
  rcases kept.rows now held with old | arrived
  · have same := origin.blobs.eq_of_key_eq old candidate.held same
    exact .inr (same ▸ held)
  · exact .inl ⟨now, held, same, arrived⟩

def ClaimedBy (plan : Plan) (store : Store) (item : Item) (dest : Path) : Prop :=
  ∃ claim ∈ store.claims, claim.kind = item.kind ∧ claim.mediaId = item.id ∧
    ∃ relative, slashed relative = claim.relativePath ∧ dest = plan.destination relative

theorem ClaimedBy.same {a b : Item} {dest : Path} (first : plan.ClaimedBy store a dest)
    (second : plan.ClaimedBy store b dest) : a.kind = b.kind ∧ a.id = b.id := by
  obtain ⟨claim, held, kind, id, relative, slash, rfl⟩ := first
  obtain ⟨claim', held', kind', id', relative', slash', named⟩ := second
  cases destination_injective named
  obtain rfl := store.claims.eq_of_key_eq held held' (slash.symm.trans slash')
  exact ⟨kind.symm.trans kind', id.symm.trans id'⟩

structure Aimed (plan : Plan) (store : Store) (item : Item) (blob : MediaBlob) (path : Path)
    (move : Move) : Prop where
  row : move.blobId = blob.id
  source : move.source = path
  claimed : plan.ClaimedBy store item move.dest

structure Placed (plan : Plan) (store : Store) (item : Item) (blob : MediaBlob) (path : Path)
    (move : Move) : Prop extends plan.Aimed store item blob path move where
  arrived : plan.Arrived move.dest

structure Copied (plan : Plan) (store : Store) (item : Item) (blob : MediaBlob) (path : Path)
    (move : Move) (fits : Bytes → Prop) : Prop extends plan.Placed store item blob path move where
  copy : ∃ content, store.disk move.dest = some content ∧
    (plan.Settled store blob.id ∨ fits content)

def Knows (plan : Plan) (origin store : Store) (item : Item) (media : Media) (blob : MediaBlob)
    (path : Path) : Stage → Prop
  | .loading => True
  | .blobLoading row => row = media
  | .resuming row file source => row = media ∧ file = blob ∧ source = path
  | .claiming row file source attempted => row = media ∧ file = blob ∧ source = path ∧
      attempted.Nodup ∧ ∀ taken ∈ attempted, ∃ claim ∈ store.claims, claim.relativePath = taken
  | .checking move _ => plan.Aimed store item blob path move
  | .reading move _ => plan.Placed store item blob path move ∧ store.disk move.dest = none
  | .persisting move _ temporary => plan.Placed store item blob path move ∧
      store.disk move.dest = none ∧
      (plan.Settled store blob.id ∨ origin.disk path = some temporary)
  | .embedding move _ => plan.Copied store item blob path move (origin.disk path = some ·)
  | .measuring move _ embedded => plan.Copied store item blob path move fun content =>
      embedded = true ∨ origin.disk path = some content
  | .rehashing move _ _ => plan.Copied store item blob path move fun _ => True
  | .selecting move _ _ contentHash => plan.Copied store item blob path move fun content =>
      ∀ expected, contentHash.or blob.blake3 = some expected → plan.hash content = expected
  | .ensuring move _ _ contentHash selected => plan.Copied store item blob path move fun content =>
      ∀ expected, contentHash.or selected = some expected → plan.hash content = expected
  | .updating move _ _ _ _ => plan.Placed store item blob path move
  | .verifying move _ _ | .removing move => move.source = path ∧ plan.Settled store blob.id
  | .moved | .alreadyDone | .failed => plan.Settled store blob.id

structure Leaves (plan : Plan) (item : Item) (store next : Store) : Prop where
  settled : ∀ {id}, plan.Settled store id → plan.Settled next id
  claims : ∀ claim ∈ store.claims, claim ∈ next.claims
  disk : ∀ {dest}, plan.Arrived dest → ¬plan.ClaimedBy store item dest →
    next.disk dest = store.disk dest

structure Stepped (plan : Plan) (origin : Store) (item : Item) (media : Media) (blob : MediaBlob)
    (path : Path) (store : Store) (later : Stage) (next : Store) : Prop where
  kept : plan.Kept origin next
  leaves : plan.Leaves item store next
  knows : plan.Knows origin next item media blob path later

section Steps

variable {item : Item} {move : Move}

theorem Leaves.same : plan.Leaves item store store := ⟨id, fun _ held => held, fun _ _ => rfl⟩

theorem Leaves.claimed (leaves : plan.Leaves item store next) {other : Item} {dest : Path}
    (claimed : plan.ClaimedBy store other dest) : plan.ClaimedBy next other dest := by
  obtain ⟨claim, held, owned⟩ := claimed
  exact ⟨claim, leaves.claims claim held, owned⟩

theorem Leaves.aimed (leaves : plan.Leaves item store next) {other : Item}
    (aimed : plan.Aimed store other blob path move) : plan.Aimed next other blob path move :=
  ⟨aimed.row, aimed.source, leaves.claimed aimed.claimed⟩

theorem Leaves.placed (leaves : plan.Leaves item store next) {other : Item}
    (placed : plan.Placed store other blob path move) : plan.Placed next other blob path move :=
  ⟨leaves.aimed placed.toAimed, placed.arrived⟩

section Others

variable {other : Item} (leaves : plan.Leaves item store next)
  (differs : ¬(item.kind = other.kind ∧ item.id = other.id))

include leaves differs

theorem Leaves.dest (placed : plan.Placed store other blob path move) :
    next.disk move.dest = store.disk move.dest :=
  leaves.disk placed.arrived fun claimed => differs (claimed.same placed.claimed)

theorem Leaves.copied {fits : Bytes → Prop}
    (copied : plan.Copied store other blob path move fits) :
    plan.Copied next other blob path move fits := by
  obtain ⟨content, there, knows⟩ := copied.copy
  exact ⟨leaves.placed copied.toPlaced, content, (leaves.dest differs copied.toPlaced).trans there,
    knows.imp_left leaves.settled⟩

theorem Leaves.knows {stage : Stage} (knows : plan.Knows origin store other media blob path stage) :
    plan.Knows origin next other media blob path stage := by
  cases stage with
  | loading => trivial
  | blobLoading | resuming => exact knows
  | claiming =>
    obtain ⟨row, file, source, distinct, taken⟩ := knows
    refine ⟨row, file, source, distinct, fun path member => ?_⟩
    obtain ⟨claim, held, same⟩ := taken path member
    exact ⟨claim, leaves.claims claim held, same⟩
  | checking => exact leaves.aimed knows
  | reading =>
    obtain ⟨placed, free⟩ := knows
    exact ⟨leaves.placed placed, (leaves.dest differs placed).trans free⟩
  | persisting =>
    obtain ⟨placed, free, read⟩ := knows
    exact ⟨leaves.placed placed, (leaves.dest differs placed).trans free,
      read.imp_left leaves.settled⟩
  | embedding | measuring | rehashing | selecting | ensuring => exact leaves.copied differs knows
  | updating => exact leaves.placed knows
  | verifying | removing => exact ⟨knows.1, leaves.settled knows.2⟩
  | moved | alreadyDone | failed => exact leaves.settled knows

end Others

theorem put_leaves (index : Nat) {dest : Path} (content : Bytes)
    (claimed : plan.ClaimedBy store item dest) :
    plan.Leaves item store (store.put index dest content) := by
  refine ⟨id, fun _ held => held, fun {other} _ foreign => ?_⟩
  rw [put_disk, if_neg]
  intro same
  exact foreign (same ▸ claimed)

theorem Kept.put (kept : plan.Kept origin store) {index : Nat} {dest : Path} {content : Bytes}
    (arrived : plan.Arrived dest) : plan.Kept origin (store.put index dest content) := by
  refine ⟨kept.media, kept.rows, kept.ids, fun {kind _ _ path} candidate => ?_⟩
  refine (kept.files candidate).imp_right fun same => ?_
  rw [put_disk, if_neg, same]
  intro taken
  have listed := candidate.listed
  rw [taken, arrived.not_candidate kind] at listed
  cases listed

section Relocation

variable {blobId : String} {dest : Path} {size : Nat} {contentHash : Option String}

theorem relocated_mem {row : MediaBlob} (held : row ∈ store.blobs) :
    (if row.id = blobId then relocated dest size contentHash row else row) ∈
      (store.relocate blobId dest size contentHash).blobs := by
  have moved := (Table.mem_update store.blobs (·.id = blobId) (relocated dest size contentHash)
    (fun _ => rfl) _).mpr ⟨row, held, rfl⟩
  simp only [decide_eq_true_eq] at moved
  exact moved

variable (arrived : plan.Arrived dest)

include arrived

theorem settled_relocate {id : String} (settled : plan.Settled store id) :
    plan.Settled (store.relocate blobId dest size contentHash) id := by
  obtain ⟨row, held, same, there⟩ := settled
  refine ⟨_, relocated_mem held, ?_⟩
  split
  · exact ⟨same, dest, rfl, arrived⟩
  · exact ⟨same, there⟩

theorem Kept.relocate (kept : plan.Kept origin store) :
    plan.Kept origin (store.relocate blobId dest size contentHash) := by
  refine ⟨kept.media, ?_, ?_, ?_⟩
  · intro row member
    rcases mem_relocate member with ⟨old, -, -, rfl⟩ | ⟨held, -⟩
    · exact .inr ⟨dest, rfl, arrived⟩
    · exact kept.rows row held
  · intro row member
    obtain ⟨now, held, same⟩ := kept.ids row member
    refine ⟨_, relocated_mem held, ?_⟩
    split
    · exact same
    · exact same
  · intro kind media blob path candidate
    exact (kept.files candidate).imp_left (settled_relocate arrived)

theorem Kept.settle (kept : plan.Kept origin store) (held : blob ∈ origin.blobs) :
    plan.Settled (store.relocate blob.id dest size contentHash) blob.id := by
  obtain ⟨now, there, same⟩ := kept.ids blob held
  refine ⟨_, relocated_mem there, ?_⟩
  rw [if_pos same]
  exact ⟨same, dest, rfl, arrived⟩

end Relocation

theorem removeFile_leaves (candidate : plan.Candidate origin kind media blob path) :
    plan.Leaves item store (store.removeFile path) := by
  refine ⟨id, fun _ held => held, fun {dest} arrived _ => if_neg fun same => ?_⟩
  have listed := candidate.listed
  rw [← same, arrived.not_candidate kind] at listed
  cases listed

theorem Kept.removeFile (kept : plan.Kept origin store) (resumable : plan.Resumable origin)
    (candidate : plan.Candidate origin kind media blob path)
    (settled : plan.Settled store blob.id) : plan.Kept origin (store.removeFile path) := by
  refine ⟨kept.media, kept.rows, kept.ids, fun {kind' media' blob' path'} other => ?_⟩
  by_cases same : path' = path
  · subst same
    have row := resumable.apart candidate other
    rw [row] at settled
    exact .inl settled
  · exact (kept.files other).imp_right fun there => (if_neg same).trans there

theorem settled_get {id : String} (settled : plan.Settled store id) :
    ∃ row path, store.blobs.get id = some row ∧ row.localPath = some path ∧ plan.Arrived path := by
  obtain ⟨row, held, same, path, named, arrived⟩ := settled
  exact ⟨row, path, (Table.get_eq_some _ _ _).mpr ⟨held, same⟩, named, arrived⟩

end Steps

section Advances

variable {index : Nat} {item : Item} {outcome : Outcome} {stage later : Stage}
  (resumable : plan.Resumable origin) (kept : plan.Kept origin store)
  (candidate : plan.Candidate origin item.kind media blob path) (errorless : outcome.Errorless)

include kept in
theorem Stepped.quiet (knows : plan.Knows origin store item media blob path later) :
    plan.Stepped origin item media blob path store later store := ⟨kept, .same, knows⟩

include kept candidate in
theorem step_loading (named : media.id = item.id)
    (advanced : plan.advance index item outcome store .loading = some (later, next)) :
    plan.Stepped origin item media blob path store later next := by
  have found : (store.media item.kind).get item.id = some media := by
    rw [kept.media]
    exact (Table.get_eq_some _ _ _).mpr ⟨candidate.live, named⟩
  rw [Run.advance, found] at advanced
  cases advanced
  exact .quiet kept rfl

include resumable kept candidate errorless in
theorem step_blobLoading
    (advanced : plan.advance index item outcome store (.blobLoading media) = some (later, next)) :
    plan.Stepped origin item media blob path store later next := by
  rw [Run.advance, errorless.before, if_neg Bool.false_ne_true, ← candidate.joined] at advanced
  rcases kept.row candidate with settled | held
  · obtain ⟨row, current, found, named, arrived⟩ := settled_get settled
    rw [found] at advanced
    dsimp only at advanced
    rw [named] at advanced
    dsimp only at advanced
    rw [if_pos arrived.under] at advanced
    cases advanced
    exact .quiet kept settled
  · rw [(Table.get_eq_some _ _ _).mpr ⟨held, rfl⟩] at advanced
    dsimp only at advanced
    rw [candidate.named] at advanced
    dsimp only at advanced
    rw [resumable.clear candidate, if_neg Bool.false_ne_true] at advanced
    cases advanced
    exact .quiet kept ⟨rfl, rfl, rfl⟩

include kept errorless in
theorem step_resuming (wet : item.dryRun = false)
    (advanced : plan.advance index item outcome store (.resuming media blob path) =
      some (later, next)) : plan.Stepped origin item media blob path store later next := by
  rw [Run.advance, errorless.before, if_neg Bool.false_ne_true, wet] at advanced
  split at advanced
  · rename_i existing found
    rw [if_neg Bool.false_ne_true] at advanced
    cases advanced
    obtain ⟨claim, picked, rfl⟩ := Option.map_eq_some_iff.mp found
    have owned := List.find?_some picked
    simp only [decide_eq_true_eq] at owned
    refine .quiet kept ⟨rfl, rfl, claim, List.mem_of_find?_eq_some picked, owned.1, owned.2, ?_⟩
    exact ⟨_, slashed_of_plain claim.plain, rfl⟩
  · rw [if_neg Bool.false_ne_true] at advanced
    cases advanced
    exact .quiet kept ⟨rfl, rfl, rfl, List.nodup_nil, fun _ member => nomatch member⟩

include kept errorless in
theorem step_claiming {attempted : List Path}
    (knows : plan.Knows origin store item media blob path (.claiming media blob path attempted))
    (advanced : plan.advance index item outcome store (.claiming media blob path attempted) =
      some (later, next)) : plan.Stepped origin item media blob path store later next := by
  obtain ⟨-, -, -, distinct, taken⟩ := knows
  rw [Run.advance, errorless.before, if_neg Bool.false_ne_true] at advanced
  split at advanced
  · rename_i claims inserted
    cases advanced
    have mem := fun claim => Table.insert_eq_some _ _ _ inserted claim
    refine ⟨⟨kept.media, kept.rows, kept.ids, kept.files⟩, ⟨id, ?_, fun _ _ => rfl⟩, rfl, rfl, ?_⟩
    · exact fun claim held => (mem claim).mpr (.inl held)
    · exact ⟨_, (mem _).mpr (.inr rfl), rfl, rfl, _, rfl, rfl⟩
  · rename_i refused
    cases advanced
    obtain ⟨claim, held, same⟩ := (Table.insert_eq_none _ _).mp refused
    refine .quiet kept ⟨rfl, rfl, rfl, ?_, ?_⟩
    · exact List.nodup_cons.mpr ⟨uniquifyPath_free _ _, distinct⟩
    · exact List.forall_mem_cons.mpr ⟨⟨claim, held, same⟩, taken⟩

include resumable kept candidate errorless in
theorem step_checking {move : Move} {size : Option Nat}
    (aimed : plan.Aimed store item blob path move) (noNul : '\x00' ∉ move.dest)
    (free : store.disk move.dest = none)
    (advanced : plan.advance index item outcome store (.checking move size) = some (later, next)) :
    plan.Stepped origin item media blob path store later next := by
  rw [Run.advance, errorless.before, free, Option.isSome_none, Bool.or_self,
    if_neg Bool.false_ne_true] at advanced
  cases advanced
  have some : plan.targetRoot ≠ [] := by
    intro none
    have clear := resumable.clear candidate
    rw [Run.underTarget, none] at clear
    cases clear
  obtain ⟨claim, -, -, -, relative, -, named⟩ := aimed.claimed
  exact .quiet kept ⟨⟨aimed, named ▸ arrived_destination some (named ▸ noNul)⟩, free⟩

include resumable kept candidate errorless in
theorem step_reading {move : Move} {size : Option Nat}
    (knows : plan.Knows origin store item media blob path (.reading move size))
    (advanced : plan.advance index item outcome store (.reading move size) = some (later, next)) :
    plan.Stepped origin item media blob path store later next := by
  obtain ⟨placed, free⟩ := knows
  have files := kept.files candidate
  rw [Run.advance, placed.source, errorless.before] at advanced
  split at advanced
  · rename_i gone
    cases advanced
    refine .quiet kept (files.resolve_right fun same => ?_)
    obtain ⟨content, there, -⟩ := resumable.there candidate
    rw [← same, gone] at there
    cases there
  · rename_i content read
    rw [if_neg Bool.false_ne_true] at advanced
    cases advanced
    exact .quiet kept ⟨placed, free, files.imp_right fun same => same.symm.trans read⟩

include resumable candidate in
theorem hash_copy {content : Bytes} (read : origin.disk path = some content) {expected : String}
    (known : blob.blake3 = some expected) : plan.hash content = expected := by
  obtain ⟨first, there, hashed⟩ := resumable.there candidate
  rw [there] at read
  cases read
  exact hashed expected known

include resumable kept candidate errorless in
theorem step_persisting {move : Move} {size : Option Nat} {temporary : Bytes}
    (knows : plan.Knows origin store item media blob path (.persisting move size temporary))
    (advanced : plan.advance index item outcome store (.persisting move size temporary) =
      some (later, next)) : plan.Stepped origin item media blob path store later next := by
  obtain ⟨placed, free, read⟩ := knows
  rw [Run.advance, errorless.before, free, Option.isSome_none, Bool.or_self,
    if_neg Bool.false_ne_true] at advanced
  dsimp only at advanced
  rw [errorless.after, if_neg Bool.false_ne_true] at advanced
  cases advanced
  have leaves := put_leaves index temporary placed.claimed
  refine ⟨kept.put placed.arrived, leaves, ?_⟩
  have there : (store.put index move.dest temporary).disk move.dest = some temporary := if_pos rfl
  have placed := leaves.placed placed
  unfold Run.copied
  split
  · split
    · exact ⟨placed, temporary, there, read⟩
    · exact ⟨placed, temporary, there, read.imp_right .inr⟩
  · refine ⟨placed, temporary, there, read.imp_right fun read _ => ?_⟩
    exact hash_copy resumable candidate read

include kept errorless in
theorem step_embedding {move : Move} {sourceHash : String}
    (copied : plan.Copied store item blob path move (origin.disk path = some ·))
    (advanced : plan.advance index item outcome store (.embedding move sourceHash) =
      some (later, next)) : plan.Stepped origin item media blob path store later next := by
  rw [Run.advance, errorless.before] at advanced
  cases tags : outcome.tags with
  | none =>
    rw [tags] at advanced
    cases advanced
    obtain ⟨content, there, fits⟩ := copied.copy
    exact .quiet kept ⟨copied.toPlaced, content, there, fits.imp_right .inr⟩
  | some written =>
    have saved := errorless.saved (tags ▸ rfl)
    rw [tags, saved] at advanced
    cases advanced
    have leaves := put_leaves index written copied.claimed
    refine ⟨kept.put copied.arrived, leaves, leaves.placed copied.toPlaced, written, if_pos rfl, ?_⟩
    exact .inr (.inl rfl)

include resumable kept candidate errorless in
theorem step_measuring {move : Move} {sourceHash : String} {embedded : Bool}
    (copied : plan.Copied store item blob path move fun content =>
      embedded = true ∨ origin.disk path = some content)
    (advanced : plan.advance index item outcome store (.measuring move sourceHash embedded) =
      some (later, next)) : plan.Stepped origin item media blob path store later next := by
  obtain ⟨content, there, fits⟩ := copied.copy
  rw [Run.advance, there, errorless.before] at advanced
  dsimp only at advanced
  rw [if_neg Bool.false_ne_true] at advanced
  split at advanced
  · cases advanced
    exact .quiet kept ⟨copied.toPlaced, content, there, .inr trivial⟩
  · rename_i plain
    cases advanced
    refine .quiet kept ⟨copied.toPlaced, content, there, fits.imp_right fun fits _ => ?_⟩
    exact hash_copy resumable candidate (fits.resolve_left plain)

include kept errorless in
theorem step_rehashing {move : Move} {sourceHash : String} {size : Nat}
    (copied : plan.Copied store item blob path move fun _ => True)
    (advanced : plan.advance index item outcome store (.rehashing move sourceHash size) =
      some (later, next)) : plan.Stepped origin item media blob path store later next := by
  obtain ⟨content, there, -⟩ := copied.copy
  rw [Run.advance, there, errorless.before] at advanced
  cases advanced
  refine .quiet kept ⟨copied.toPlaced, content, there, .inr fun expected known => ?_⟩
  exact Option.some.inj known

include kept candidate errorless in
theorem step_selecting {move : Move} {sourceHash : String} {size : Nat}
    {contentHash : Option String}
    (copied : plan.Copied store item blob path move fun content =>
      ∀ expected, contentHash.or blob.blake3 = some expected → plan.hash content = expected)
    (advanced : plan.advance index item outcome store
      (.selecting move sourceHash size contentHash) = some (later, next)) :
    plan.Stepped origin item media blob path store later next := by
  obtain ⟨content, there, fits⟩ := copied.copy
  rw [Run.advance, copied.row, errorless.before] at advanced
  rcases kept.row candidate with settled | held
  · obtain ⟨row, -, found, -⟩ := settled_get settled
    rw [found] at advanced
    cases advanced
    exact .quiet kept ⟨copied.toPlaced, content, there, .inl settled⟩
  · rw [(Table.get_eq_some _ _ _).mpr ⟨held, rfl⟩] at advanced
    cases advanced
    exact .quiet kept ⟨copied.toPlaced, content, there, fits⟩

include kept errorless in
theorem step_ensuring {move : Move} {sourceHash : String} {size : Nat}
    {contentHash selected : Option String}
    (copied : plan.Copied store item blob path move fun content =>
      ∀ expected, contentHash.or selected = some expected → plan.hash content = expected)
    (advanced : plan.advance index item outcome store
      (.ensuring move sourceHash size contentHash selected) = some (later, next)) :
    plan.Stepped origin item media blob path store later next := by
  obtain ⟨content, there, fits⟩ := copied.copy
  rw [Run.advance, errorless.before, there] at advanced
  split at advanced
  · cases advanced
    exact .quiet kept copied.toPlaced
  · rename_i expected known
    split at advanced
    · rename_i differs
      cases advanced
      refine .quiet kept (fits.resolve_right fun fits => ?_)
      rw [Option.map_some, fits expected known] at differs
      simp at differs
    · cases advanced
      exact .quiet kept copied.toPlaced

include kept candidate errorless in
theorem step_updating {move : Move} {sourceHash : String} {size : Nat}
    {contentHash selected : Option String} (placed : plan.Placed store item blob path move)
    (free : store.hashTaken move.blobId contentHash = false)
    (advanced : plan.advance index item outcome store
      (.updating move sourceHash size contentHash selected) = some (later, next)) :
    plan.Stepped origin item media blob path store later next := by
  rw [Run.advance, errorless.before, free, Bool.or_self, if_neg Bool.false_ne_true] at advanced
  dsimp only at advanced
  rw [errorless.after, if_neg Bool.false_ne_true, placed.row] at advanced
  cases advanced
  have arrived := placed.arrived
  refine ⟨kept.relocate arrived, ⟨settled_relocate arrived, fun _ held => held, fun _ _ => rfl⟩, ?_⟩
  exact ⟨placed.source, kept.settle arrived candidate.held⟩

include kept in
theorem step_verifying {move : Move} {sourceHash destinationHash : String}
    (knows : move.source = path ∧ plan.Settled store blob.id)
    (advanced : plan.advance index item outcome store
      (.verifying move sourceHash destinationHash) = some (later, next)) :
    plan.Stepped origin item media blob path store later next := by
  rw [Run.advance] at advanced
  split at advanced
  · cases advanced
    exact .quiet kept knows.2
  · cases advanced
    exact .quiet kept knows

include resumable kept candidate in
theorem step_removing {move : Move} (knows : move.source = path ∧ plan.Settled store blob.id)
    (advanced : plan.advance index item outcome store (.removing move) = some (later, next)) :
    plan.Stepped origin item media blob path store later next := by
  obtain ⟨source, settled⟩ := knows
  rw [Run.advance, source] at advanced
  split at advanced
  · cases advanced
    exact .quiet kept settled
  · cases advanced
    exact ⟨kept.removeFile resumable candidate settled, removeFile_leaves candidate, settled⟩

include resumable kept candidate errorless in
theorem advance_stepped (named : media.id = item.id) (wet : item.dryRun = false)
    (noNul : ∀ dest ∈ stage.aim, '\x00' ∉ dest) (free : ∀ dest ∈ stage.aim, store.disk dest = none)
    (untaken : ∀ row ∈ stage.commit, store.hashTaken row.1 row.2 = false)
    (knows : plan.Knows origin store item media blob path stage)
    (advanced : plan.advance index item outcome store stage = some (later, next)) :
    plan.Stepped origin item media blob path store later next := by
  cases stage with
  | loading => exact step_loading kept candidate named advanced
  | blobLoading =>
    cases knows
    exact step_blobLoading resumable kept candidate errorless advanced
  | resuming =>
    obtain ⟨rfl, rfl, rfl⟩ := knows
    exact step_resuming kept errorless wet advanced
  | claiming =>
    have ⟨row, file, source, _⟩ := knows
    subst row file source
    exact step_claiming kept errorless knows advanced
  | checking =>
    exact step_checking resumable kept candidate errorless knows (noNul _ rfl) (free _ rfl) advanced
  | reading => exact step_reading resumable kept candidate errorless knows advanced
  | persisting => exact step_persisting resumable kept candidate errorless knows advanced
  | embedding => exact step_embedding kept errorless knows advanced
  | measuring => exact step_measuring resumable kept candidate errorless knows advanced
  | rehashing => exact step_rehashing kept errorless knows advanced
  | selecting => exact step_selecting kept candidate errorless knows advanced
  | ensuring => exact step_ensuring kept errorless knows advanced
  | updating => exact step_updating kept candidate errorless knows (untaken _ rfl) advanced
  | verifying => exact step_verifying kept knows advanced
  | removing => exact step_removing resumable kept candidate knows advanced
  | moved | alreadyDone | failed => cases advanced

end Advances

end Plan

end Tomb.Grimoire.Maintenance.Reorganize
