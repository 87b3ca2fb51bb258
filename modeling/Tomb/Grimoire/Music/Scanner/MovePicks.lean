import Tomb.Grimoire.Music.Scanner.MoveDir

/-! Which files of the new tree pick which blobs, and what the walk makes of their rows. -/
namespace Tomb.Grimoire.Music.Scanner
open Lib

def MediaBlob.Under (row : MediaBlob) (root : Path) : Prop :=
  ∃ path, row.localPath = some path ∧ root <+: path

namespace Move

variable (move : Move)

@[grind =] def picks : List String → List File → List (File × OldBlob)
  | _, [] => []
  | consumed, file :: rest =>
    if move.considers file then
      match move.choose consumed file with
      | some (blob, _) => (file, blob) :: picks (blob.id :: consumed) rest
      | none => picks consumed rest
    else picks consumed rest

@[grind =] def afterPicks (picks : List (File × OldBlob)) (row : MediaBlob) : MediaBlob :=
  match picks.find? fun pick => pick.2.id = row.id with
  | some pick =>
    if move.verifies (move.newPath pick.1) row then
      relocated (move.newPath pick.1) pick.1.size row
    else row
  | none => row

variable {move}

variable {consumed : List String}

theorem viable_subset {key : OldBlob → List UInt8} {value : List UInt8}
    {old : List OldBlob} {size tolerance : Int} {blob : OldBlob}
    (picked : pickMatch key value consumed old size tolerance = some blob) :
    blob ∈ viable key value consumed old size tolerance := by
  unfold pickMatch at picked
  split at picked
  · rename_i alone
    cases picked
    rw [alone]
    exact List.mem_singleton_self _
  · cases picked

theorem choose_fresh {file : File} {blob : OldBlob} {tier : MatchTier}
    (chosen : move.choose consumed file = some (blob, tier)) :
    blob ∈ move.oldBlobs ∧ blob.id ∉ consumed := by
  have ofViable {key : OldBlob → List UInt8} {value : List UInt8} {tolerance : Int}
      (picked : pickMatch key value consumed move.oldBlobs file.size tolerance = some blob) :
      blob ∈ move.oldBlobs ∧ blob.id ∉ consumed := by
    obtain ⟨listed, fits⟩ := List.mem_filter.mp (viable_subset picked)
    simp only [Bool.and_eq_true, decide_eq_true_eq] at fits
    exact ⟨listed, fits.1.2⟩
  unfold choose at chosen
  simp only [Option.or_eq_some_iff, Option.map_eq_some_iff, Prod.mk.injEq] at chosen
  rcases chosen with ⟨_, picked, rfl, _⟩ | ⟨_, ⟨_, picked, rfl, _⟩ | ⟨_, _, picked, rfl, _⟩⟩
  · exact ofViable picked
  · exact ofViable picked
  · exact ofViable picked

theorem picks_fresh {files : List File} {pick : File × OldBlob}
    (listed : pick ∈ move.picks consumed files) :
    pick.2 ∈ move.oldBlobs ∧ pick.2.id ∉ consumed := by
  induction files generalizing consumed with
  | nil => cases listed
  | cons file rest ih =>
    rw [picks] at listed
    split at listed
    · split at listed
      · rename_i blob tier chosen
        rcases List.mem_cons.mp listed with rfl | later
        · exact choose_fresh chosen
        · obtain ⟨known, fresh⟩ := ih later
          exact ⟨known, fun before => fresh (List.mem_cons_of_mem _ before)⟩
      · exact ih listed
    · exact ih listed

theorem afterPicks_id (picks : List (File × OldBlob)) (row : MediaBlob) :
    (move.afterPicks picks row).id = row.id ∧
      (move.afterPicks picks row).blake3 = row.blake3 ∧
      (move.afterPicks picks row).deleted = row.deleted := by
  unfold afterPicks
  split
  · split
    · exact ⟨rfl, rfl, rfl⟩
    · exact ⟨rfl, rfl, rfl⟩
  · exact ⟨rfl, rfl, rfl⟩

theorem relocateBlob_eq_some {id : String} {path : Path} {size : Int} {library library' : Library}
    (done : move.relocateBlob id path size library = some library') :
    (library.blobs.get id).any (move.verifies path) = true ∧
      library'.blobs = library.blobs.update (·.id = id) (relocated path size) fun _ => rfl := by
  unfold relocateBlob at done
  split at done
  · rename_i verified
    cases done
    exact ⟨verified, rfl⟩
  · cases done

theorem relocateBlob_eq_none {id : String} {path : Path} {size : Int} {library : Library}
    (failed : move.relocateBlob id path size library = none) :
    (library.blobs.get id).any (move.verifies path) = false := by
  unfold relocateBlob at failed
  split at failed
  · cases failed
  · rename_i refused
    exact Bool.eq_false_iff.mpr refused

theorem afterPicks_cons {pick : File × OldBlob} {rest : List (File × OldBlob)} {row : MediaBlob} :
    move.afterPicks (pick :: rest) row =
      if pick.2.id = row.id then
        if move.verifies (move.newPath pick.1) row then
          relocated (move.newPath pick.1) pick.1.size row
        else row
      else move.afterPicks rest row := by
  by_cases same : pick.2.id = row.id
  · simp [afterPicks, same]
  · simp [afterPicks, same]

section Steps

variable {file : File} {walk : Walk}

theorem visit_cases (file : File) (walk : Walk) :
    ((move.visit file walk).library = walk.library ∧
      (move.visit file walk).consumed = walk.consumed ∧
      (move.visit file walk).result.fsStoreRefreshFailures = walk.result.fsStoreRefreshFailures ∧
      ∀ rest, move.picks walk.consumed (file :: rest) = move.picks walk.consumed rest) ∨
    ∃ blob tier, move.visit file walk = move.take file blob tier walk ∧
      ∀ rest, move.picks walk.consumed (file :: rest) =
        (file, blob) :: move.picks (blob.id :: walk.consumed) rest := by
  unfold visit
  by_cases considered : move.considers file = true
  · rw [if_pos considered]
    cases chosen : move.choose walk.consumed file with
    | none =>
      refine .inl ?_
      have skips (rest : List File) :
          move.picks walk.consumed (file :: rest) = move.picks walk.consumed rest := by
        rw [picks, if_pos considered, chosen]
      dsimp only
      split
      · exact ⟨rfl, rfl, rfl, skips⟩
      · exact ⟨rfl, rfl, rfl, skips⟩
    | some pick =>
      refine .inr ⟨pick.1, pick.2, rfl, fun rest => ?_⟩
      rw [picks, if_pos considered, chosen]
  · rw [if_neg considered]
    refine .inl ⟨rfl, rfl, rfl, fun rest => ?_⟩
    rw [picks, if_neg considered]

theorem take_consumed {blob : OldBlob} {tier : MatchTier} :
    (move.take file blob tier walk).consumed = blob.id :: walk.consumed := by
  unfold take
  dsimp only
  split
  · rfl
  · split
    · rfl
    · rfl

theorem take_rows (write : move.opts.dryRun = false) {blob : OldBlob} {tier : MatchTier} :
    (move.take file blob tier walk).library.blobs.rows =
      walk.library.blobs.rows.map (move.afterPicks [(file, blob)]) := by
  have at_ (row : MediaBlob) (there : row ∈ walk.library.blobs.rows) (same : blob.id = row.id) :
      walk.library.blobs.get blob.id = some row :=
    (Table.get_eq_some ..).mpr ⟨there, same.symm⟩
  unfold take
  dsimp only
  rw [write, if_neg Bool.false_ne_true]
  split
  · rename_i library done
    obtain ⟨verified, rows⟩ := relocateBlob_eq_some done
    rw [rows]
    refine List.map_congr_left fun row there => ?_
    rw [afterPicks_cons]
    by_cases same : blob.id = row.id
    · rw [at_ row there same, Option.any_some] at verified
      rw [if_pos (decide_eq_true same.symm), if_pos same, if_pos verified]
    · rw [if_neg same, if_neg fun named => same (of_decide_eq_true named).symm]
      rfl
  · rename_i failed
    have refused := relocateBlob_eq_none failed
    refine (List.map_id _).symm.trans (List.map_congr_left fun row there => ?_)
    rw [afterPicks_cons]
    split
    · rename_i same
      rw [at_ row there same, Option.any_some] at refused
      rw [refused, if_neg Bool.false_ne_true]
      rfl
    · rfl

end Steps

variable (move) in
/-- The row of the blob that a file has picked may go there. -/
@[grind =] def Verified (library : Library) (pick : File × OldBlob) : Prop :=
  (library.blobs.get pick.2.id).any (move.verifies (move.newPath pick.1)) = true

theorem count_failures (result : MoveScanDirectoryResult) (tier : MatchTier) :
    (result.count tier).fsStoreRefreshFailures = result.fsStoreRefreshFailures := by
  cases tier <;> rfl

theorem take_failures (write : move.opts.dryRun = false) {file : File} {walk : Walk}
    {blob : OldBlob} {tier : MatchTier} :
    (move.take file blob tier walk).result.fsStoreRefreshFailures = 0 ↔
      walk.result.fsStoreRefreshFailures = 0 ∧ move.Verified walk.library (file, blob) := by
  unfold take Verified
  dsimp only
  rw [write, if_neg Bool.false_ne_true]
  split
  · rename_i library done
    rw [(relocateBlob_eq_some done).1, count_failures]
    simp
  · rename_i failed
    rw [relocateBlob_eq_none failed]
    simp

theorem walk_failures (write : move.opts.dryRun = false) (files : List File) (walk : Walk) :
    (runAll move.visit files walk).result.fsStoreRefreshFailures = 0 ↔
      walk.result.fsStoreRefreshFailures = 0 ∧
        ∀ pick ∈ move.picks walk.consumed files, move.Verified walk.library pick := by
  induction files generalizing walk with
  | nil => simp [picks]
  | cons file rest ih =>
    rw [runAll_cons, ih]
    rcases @visit_cases move file walk with
      ⟨library, consumed, failures, skips⟩ | ⟨blob, tier, takes, picked⟩
    · rw [library, consumed, failures, skips]
    · rw [takes, take_consumed, take_failures write, picked, List.forall_mem_cons, and_assoc]
      refine and_congr_right fun _ => and_congr_right fun _ => ?_
      refine forall_congr' fun pick => forall_congr' fun listed => ?_
      have other : pick.2.id ≠ blob.id := fun same =>
        (picks_fresh listed).2 (List.mem_cons.mpr (.inl same))
      have same : (move.take file blob tier walk).library.blobs.get pick.2.id =
          walk.library.blobs.get pick.2.id := by
        ext row
        rw [Table.get_eq_some, Table.get_eq_some, Table.mem_def, take_rows write, List.mem_map]
        constructor
        · rintro ⟨⟨old, there, rfl⟩, named⟩
          have elsewhere : blob.id ≠ old.id := fun equal =>
            other (named.symm.trans ((afterPicks_id _ old).1.trans equal.symm))
          rw [afterPicks_cons, if_neg elsewhere] at named ⊢
          exact ⟨there, named⟩
        · rintro ⟨there, named⟩
          refine ⟨⟨row, there, ?_⟩, named⟩
          rw [afterPicks_cons, if_neg fun equal => other (named.symm.trans equal.symm)]
          rfl
      rw [Verified, Verified, same]

end Move

end Tomb.Grimoire.Music.Scanner
