import Tomb.Grimoire.Music.Scanner.MovePicks
import Tomb.Lib.Picks

/-! The matching of a move against the order in which the walk comes to the files. -/
namespace Tomb.Grimoire.Music.Scanner
open Lib

inductive Counter where
  | relocated (tier : MatchTier)
  | ambiguous
  | unmatched

def MoveScanDirectoryResult.add (result : MoveScanDirectoryResult) :
    Counter → MoveScanDirectoryResult
  | .relocated tier => result.count tier
  | .ambiguous => { result with ambiguousSkipped := result.ambiguousSkipped + 1 }
  | .unmatched => { result with newFilesUnmatched := result.newFilesUnmatched + 1 }

namespace Move

variable (move : Move)

@[grind =] def pick (consumed : List String) (file : File) : Option String :=
  if move.considers file then (move.choose consumed file).map (·.1.id) else none

def visiting (order : List File) : Move := { move with tree := order }

def walkOf (order files : List File) : Walk := runAll (move.visiting order).visit files move.start

def matched (order : List File) (file : File) : Option String :=
  move.pick (move.walkOf order (order.takeWhile (· ≠ file))).consumed file

/-- In every order of the walk the files get the same blobs, no two of them the same one, a file
that has one candidate alone at its relative path gets that, and every file is counted once. -/
structure Steady : Prop where
  same : ∀ order order', TurnsOf move.tree order → TurnsOf move.tree order' →
    ∀ file ∈ move.tree, move.matched order file = move.matched order' file
  injective : ∀ order, TurnsOf move.tree order → ∀ file ∈ move.tree, ∀ other ∈ move.tree, ∀ id,
    move.matched order file = some id → move.matched order other = some id → file = other
  exact_path : ∀ order, TurnsOf move.tree order → ∀ file ∈ move.tree,
    move.considers file = true → ∀ old, viable OldBlob.relPath (slashed file.rel) [] move.oldBlobs
      file.size move.opts.sizeToleranceBytes = [old] → move.matched order file = some old.id
  counted : ∀ order, TurnsOf move.tree order → ∀ before file after, order = before ++ file :: after →
    move.considers file = true → ∃ counter, (move.walkOf order (before ++ [file])).result =
      (move.walkOf order before).result.add counter

/-- The blobs that the files would pick first may go to them. -/
def FirstsVerified : Prop :=
  ∀ file ∈ move.tree, ∀ id ∈ move.pick [] file,
    (move.library.blobs.get id).any (move.verifies (move.newPath file)) = true

variable {move}

theorem pick_fresh (consumed : List String) (file : File) (id : String)
    (picked : move.pick consumed file = some id) : id ∉ consumed := by
  unfold pick at picked
  split at picked
  · obtain ⟨⟨blob, tier⟩, chosen, rfl⟩ := Option.map_eq_some_iff.mp picked
    exact (choose_fresh chosen).2
  · cases picked

theorem pick_ext (consumed consumed' : List String) (file : File)
    (same : ∀ id, id ∈ consumed ↔ id ∈ consumed') :
    move.pick consumed file = move.pick consumed' file := by
  have viables : ∀ key value size tolerance,
      viable key value consumed move.oldBlobs size tolerance =
        viable key value consumed' move.oldBlobs size tolerance := by
    intro key value size tolerance
    simp only [viable, same]
  simp only [pick, choose, pickMatch, viables]

theorem pick_exact_path {file : File} (considered : move.considers file = true) {old : OldBlob}
    (alone : viable OldBlob.relPath (slashed file.rel) [] move.oldBlobs file.size
      move.opts.sizeToleranceBytes = [old]) : move.pick [] file = some old.id := by
  simp only [pick, considered, if_true, choose, pickMatch, alone, Option.map_some, Option.some_or]

theorem visit_consumed (file : File) (walk : Walk) :
    (move.visit file walk).consumed = (move.pick walk.consumed file).toList ++ walk.consumed := by
  unfold visit pick
  split
  · cases move.choose walk.consumed file with
    | none =>
      dsimp only [Option.map_none]
      split <;> rfl
    | some chosen => exact take_consumed
  · rfl

theorem walkOf_consumed (order files : List File) (walk : Walk) :
    (runAll (move.visiting order).visit files walk).consumed =
      taken move.pick walk.consumed files := by
  induction files generalizing walk with
  | nil => rfl
  | cons file rest ih =>
    rw [runAll_cons, ih, visit_consumed]
    rfl

theorem matched_eq (order : List File) (file : File) :
    move.matched order file = pickOf move.pick order file := by
  rw [matched, walkOf, walkOf_consumed]
  rfl

theorem visit_result {file : File} (considered : move.considers file = true) (walk : Walk) :
    (∃ counter, (move.visit file walk).result = walk.result.add counter) ∨
      move.opts.dryRun = false ∧ (move.visit file walk).result.fsStoreRefreshFailures =
        walk.result.fsStoreRefreshFailures + 1 := by
  rw [visit, if_pos considered]
  cases move.choose walk.consumed file with
  | none =>
    dsimp only
    split
    · exact .inl ⟨.ambiguous, rfl⟩
    · exact .inl ⟨.unmatched, rfl⟩
  | some chosen =>
    obtain ⟨blob, tier⟩ := chosen
    dsimp only [take]
    split
    · exact .inl ⟨.relocated tier, rfl⟩
    · rename_i write
      split
      · exact .inl ⟨.relocated tier, rfl⟩
      · refine .inr ⟨Bool.eq_false_iff.mpr write, ?_⟩
        cases tier <;> rfl

theorem add_failures (result : MoveScanDirectoryResult) (counter : Counter) :
    (result.add counter).fsStoreRefreshFailures = result.fsStoreRefreshFailures := by
  cases counter with
  | relocated tier => exact count_failures result tier
  | ambiguous | unmatched => rfl

theorem of_mem_picks {consumed : List String} {files : List File} {pick : File × OldBlob}
    (listed : pick ∈ move.picks consumed files) : ∃ before after, files = before ++ pick.1 :: after ∧
      move.pick (taken move.pick consumed before) pick.1 = some pick.2.id := by
  induction files generalizing consumed with
  | nil => cases listed
  | cons file rest ih =>
    have later : ∀ consumed', taken move.pick consumed [file] = consumed' →
        pick ∈ move.picks consumed' rest → ∃ before after, file :: rest = before ++ pick.1 :: after ∧
          move.pick (taken move.pick consumed before) pick.1 = some pick.2.id := by
      intro consumed' same listed
      obtain ⟨before, after, split, picked⟩ := ih listed
      refine ⟨file :: before, after, congrArg (file :: ·) split, ?_⟩
      rw [← same] at picked
      exact picked
    rw [picks] at listed
    split at listed
    · rename_i considered
      split at listed
      · rename_i blob tier chosen
        have own : move.pick consumed file = some blob.id := by
          rw [Move.pick, if_pos considered, chosen]
          rfl
        rcases List.mem_cons.mp listed with rfl | listed
        · exact ⟨[], rest, rfl, own⟩
        · exact later _ (by simp [taken, own]) listed
      · rename_i passed
        exact later _ (by simp [taken, Move.pick, passed]) listed
    · rename_i ignored
      exact later _ (by simp [taken, Move.pick, ignored]) listed

theorem mem_picks {consumed : List String} {before after : List File} {file : File} {id : String}
    (picked : move.pick (taken move.pick consumed before) file = some id) :
    ∃ blob, (file, blob) ∈ move.picks consumed (before ++ file :: after) ∧ blob.id = id := by
  induction before generalizing consumed with
  | nil =>
    change move.pick consumed file = some id at picked
    unfold Move.pick at picked
    split at picked
    · rename_i considered
      obtain ⟨⟨blob, tier⟩, chosen, same⟩ := Option.map_eq_some_iff.mp picked
      refine ⟨blob, ?_, same⟩
      rw [List.nil_append, picks, if_pos considered, chosen]
      exact List.mem_cons_self
    · cases picked
  | cons first before ih =>
    obtain ⟨blob, listed, same⟩ := ih picked
    refine ⟨blob, ?_, same⟩
    rw [List.cons_append, picks]
    split
    · rename_i considered
      rw [Move.pick, if_pos considered] at listed
      split
      · rename_i chosen
        rw [chosen] at listed
        exact List.mem_cons_of_mem _ listed
      · rename_i passed
        rw [passed] at listed
        exact listed
    · rename_i ignored
      rw [Move.pick, if_neg ignored] at listed
      exact listed

theorem verifies_visiting {order : List File} (same : ∀ file, file ∈ order ↔ file ∈ move.tree)
    (path : Path) (row : MediaBlob) :
    (move.visiting order).verifies path row = move.verifies path row := by
  have any : ∀ p : File → Bool, order.any p = move.tree.any p := by
    intro p
    rw [Bool.eq_iff_iff, List.any_eq_true, List.any_eq_true]
    simp only [same]
  exact congrArg (fun checks => move.answers.relocates row.id && row.blake3.all checks)
    (funext fun hash => any _)

theorem picks_visiting (order : List File) (consumed : List String) (files : List File) :
    (move.visiting order).picks consumed files = move.picks consumed files := by
  induction files generalizing consumed with
  | nil => rfl
  | cons file rest ih =>
    simp only [picks, ih]
    rfl

theorem failures_iff (write : move.opts.dryRun = false) {order : List File}
    (same : ∀ file, file ∈ order ↔ file ∈ move.tree) (files : List File) :
    (move.walkOf order files).result.fsStoreRefreshFailures = 0 ↔
      ∀ pick ∈ move.picks [] files, move.Verified move.library pick := by
  have write : (move.visiting order).opts.dryRun = false := write
  refine (walk_failures write files move.start).trans ?_
  rw [picks_visiting]
  refine ⟨fun all pick listed => ?_, fun all => ⟨rfl, fun pick listed => ?_⟩⟩
  · have verified := all.2 pick listed
    unfold Verified at verified ⊢
    rwa [funext (verifies_visiting same _)] at verified
  · have verified := all pick listed
    unfold Verified at verified ⊢
    rwa [funext (verifies_visiting same _)]

theorem steady_of_undisturbed (undisturbed : Undisturbed move.pick move.tree)
    (verified : move.opts.dryRun = true ∨ move.FirstsVerified) : move.Steady := by
  have firsts : ∀ order, TurnsOf move.tree order → ∀ file ∈ move.tree,
      move.matched order file = move.pick [] file := by
    intro order turns file member
    rw [matched_eq]
    exact undisturbed.pickOf_eq turns member
  constructor
  · intro order order' turns turns' file member
    rw [firsts order turns file member, firsts order' turns' file member]
  · intro order turns file member other member' id first second
    rw [matched_eq] at first second
    exact pickOf_injective pick_fresh ((turns.same file).mpr member) ((turns.same other).mpr member')
      first second
  · intro order turns file member considered old alone
    rw [firsts order turns file member]
    exact pick_exact_path considered alone
  · intro order turns before file after split considered
    have visited : move.walkOf order (before ++ [file]) =
        (move.visiting order).visit file (move.walkOf order before) := runAll_append ..
    rw [visited]
    have considered : (move.visiting order).considers file = true := considered
    refine (visit_result considered _).resolve_right ?_
    rintro ⟨write, fails⟩
    have write : move.opts.dryRun = false := write
    have all := verified.resolve_left (Bool.eq_false_iff.mp write)
    have none : (move.walkOf order (before ++ [file])).result.fsStoreRefreshFailures = 0 := by
      refine (failures_iff write turns.same _).mpr fun pick listed => ?_
      obtain ⟨earlier, later, part, picked⟩ := of_mem_picks listed
      have place : order = earlier ++ pick.1 :: (later ++ after) := by
        rw [split, ← List.singleton_append, ← List.append_assoc, part, List.append_assoc,
          List.cons_append]
      have member : pick.1 ∈ move.tree := (turns.same _).mp (by simp [place])
      have absent : pick.1 ∉ earlier := by
        have parts := turns.distinct
        rw [place] at parts
        exact fun early => (List.nodup_append.mp parts).2.2 _ early _ List.mem_cons_self rfl
      have own : move.pick [] pick.1 = some pick.2.id := by
        rw [← firsts order turns _ member, matched_eq, place, pickOf_split _ absent, picked]
      exact all pick.1 member pick.2.id own
    rw [visited, fails] at none
    exact absurd none (Nat.succ_ne_zero _)

theorem firstsVerified_of_steady (steady : move.Steady) (write : move.opts.dryRun = false) :
    move.FirstsVerified := by
  intro file member id picked
  obtain ⟨rest, turns⟩ := TurnsOf.of_split member List.nodup_nil nofun
  rw [List.nil_append] at turns
  have none : ∀ before after, file :: rest = before ++ after →
      (move.walkOf (file :: rest) before).result.fsStoreRefreshFailures = 0 := by
    intro before
    induction before using List.reverseRecOn with
    | nil => exact fun _ _ => rfl
    | append_singleton before next ih =>
      intro after split
      rw [List.append_assoc, List.singleton_append] at split
      have earlier := ih (next :: after) split
      by_cases considered : move.considers next = true
      · obtain ⟨counter, counted⟩ := steady.counted _ turns before next after split considered
        rw [counted, add_failures]
        exact earlier
      · have visited : move.walkOf (file :: rest) (before ++ [next]) =
            (move.visiting (file :: rest)).visit next (move.walkOf (file :: rest) before) :=
          runAll_append ..
        have ignored : (move.visiting (file :: rest)).considers next ≠ true := considered
        rw [visited, visit, if_neg ignored]
        exact earlier
  have all := (failures_iff write turns.same _).mp (none _ [] (List.append_nil _).symm)
  obtain ⟨blob, listed, same⟩ := @mem_picks _ _ [] rest _ _ picked
  have verified := all _ listed
  unfold Verified at verified
  rwa [same] at verified

/-- The matching is steady exactly when no file picks another blob, or none, once some of the blobs
that other files would pick first are gone, and, unless it is a dry run, the blobs that the files
would pick first may go to them. -/
theorem steady_iff (move : Move) : move.Steady ↔ Undisturbed move.pick move.tree ∧
    (move.opts.dryRun = true ∨ move.FirstsVerified) := by
  constructor
  · intro steady
    have undisturbed : Undisturbed move.pick move.tree := by
      refine (pickOf_agrees_iff pick_ext move.tree).mp fun order order' turns turns' file member => ?_
      rw [← matched_eq, ← matched_eq]
      exact steady.same order order' turns turns' file member
    refine ⟨undisturbed, ?_⟩
    cases write : move.opts.dryRun with
    | true => exact .inl rfl
    | false => exact .inr (firstsVerified_of_steady steady write)
  · rintro ⟨undisturbed, verified⟩
    exact steady_of_undisturbed undisturbed verified

def track (folder : UInt8) : File :=
  ⟨[[folder], [0x31, 0x2E, 0x6D, 0x70, 0x33]], 10, "hash", "", true, true⟩

/-- A library with the one blob `a/1.mp3` is moved to a tree with `a/1.mp3` and `b/1.mp3`. -/
def grown : Move where
  oldRoot := [[0x6F]]
  newRoot := [[0x6E]]
  isDir := true
  tree := [track 0x61, track 0x62]
  opts := ⟨false, 2048, true⟩
  supportedAudioFormats := [[0x6D, 0x70, 0x33]]
  answers := ⟨true, true, fun _ => true, true, true, fun _ => true, fun _ => true⟩
  library := {
    blobs := ⟨[⟨"blob", some ([0x6F] :: (track 0x61).rel), some 10, none, none, some "hash", none,
      false⟩], List.nodup_singleton _⟩
    songs := []
    scannedDirectories := [[[0x6F]]] }

theorem grown_not_steady : ¬grown.Steady := by
  intro steady
  have same := steady.same [track 0x61, track 0x62] [track 0x62, track 0x61]
    ⟨by decide, fun _ => Iff.rfl⟩ ⟨by decide, fun file => by simp [grown, or_comm]⟩ (track 0x61)
    List.mem_cons_self
  revert same
  decide

end Move

end Tomb.Grimoire.Music.Scanner
