import Tomb.Grimoire.MediaBlobz.LocalPaths

/-! When a repair of local paths leaves every path that was good a good one. -/
namespace Tomb.Grimoire.MediaBlobz
open Tomb.Lib

/-- A call that may repair paths: the repair of the whole table, or a request for one blob's path. -/
inductive Repair where
  | staleLocalPaths
  | blobPath (id : String) (referenced : Bool)
  | blobPathByBlake3 (blake3 : String) (referenced : Bool)

def Repair.run (fs : FileSystem) (dataDir : Path) (table : Table) : Repair → Table
  | staleLocalPaths => (repairStaleLocalPaths table dataDir).1
  | blobPath id referenced =>
    (buildBlobPathResponse fs dataDir table (table.getMediaBlob id) referenced).1
  | blobPathByBlake3 blake3 referenced =>
    (buildBlobPathResponse fs dataDir table (table.getMediaBlobByBlake3 blake3) referenced).1

/-- What a repair promises. `own` tells the data directory below which a row's path was written, where
there is one; no row records it. -/
structure Contract (fs : FileSystem) (dataDir : Path) (own : String → Option Path) (table : Table)
    (repair : Repair) : Prop where
  kept : ∀ id path bytes, table.localPath id = some path → fs path = some (.file bytes) →
    ∃ path', (repair.run fs dataDir table).localPath id = some path' ∧
      fs path' = some (.file bytes)
  moved : ∀ id path path', table.localPath id = some path →
    (repair.run fs dataDir table).localPath id = some path' → path' ≠ path →
    ∃ dir rel, own id = some dir ∧ path.chars = dir.chars ++ '/' :: rel ∧
      path'.chars = dataDir.chars ++ '/' :: rel
  again : repair.run fs dataDir (repair.run fs dataDir table) = repair.run fs dataDir table
  agree : ∀ path, candidateRepairedLocalPath path dataDir =
    if sweeps dataDir path then some (swept dataDir path) else none

/-- The row's file is missing, and there is one at its candidate path that the blob store can refer
to. -/
def Heals (fs : FileSystem) (dataDir : Path) (found : Option MediaBlob) (referenced : Bool) : Prop :=
  ∃ row path candidate, found = some row ∧ row.localPath = some path ∧ fs path = none ∧
    candidateRepairedLocalPath path dataDir = some candidate ∧ (fs candidate).isSome ∧
    (row.blake3 = none ∨ referenced = true)

def Repair.Acts (fs : FileSystem) (dataDir : Path) (table : Table) : Repair → Prop
  | staleLocalPaths => True
  | blobPath id referenced => Heals fs dataDir (table.getMediaBlob id) referenced
  | blobPathByBlake3 blake3 referenced =>
    Heals fs dataDir (table.getMediaBlobByBlake3 blake3) referenced

/-- The row's own data directory ends where its path first has the marker, and the row's file, if it
has one, also lies below the right data directory. -/
def Movable (fs : FileSystem) (dataDir : Path) (own : Option Path) (path : Path) : Prop :=
  ∃ dir, own = some dir ∧ dir.chars <+: path.chars ∧
    Text.find marker path.chars = some dir.chars.length ∧
    ∀ bytes, fs path = some (.file bytes) →
      fs (dataDir.rebase path dir.chars.length) = some (.file bytes)

/-! One path. -/

variable {dataDir path : Path}

theorem sweeps_iff : sweeps dataDir path ↔
      ¬ dataDir.chars <+: path.chars ∧ (Text.find marker path.chars).isSome := by
  rw [sweeps, ne_eq, Sqlite.substr_one_eq_iff path.noNul dataDir.noNul, Sqlite.instr, and_comm]
  cases Text.find marker path.chars <;> simp

theorem swept_eq {pos : Nat} (found : Text.find marker path.chars = some pos) :
    swept dataDir path = dataDir.rebase path pos := by
  ext1
  simp [swept, Path.rebase, Sqlite.substrFrom, Sqlite.upToNul_eq path.noNul, Sqlite.instr, found]

theorem candidate_eq_swept (path dataDir : Path) :
    candidateRepairedLocalPath path dataDir =
      if sweeps dataDir path then some (swept dataDir path) else none := by
  unfold candidateRepairedLocalPath
  simp only [sweeps_iff]
  split
  · rename_i below
    rw [if_neg fun takes => takes.1 below]
  · rename_i elsewhere
    cases found : Text.find marker path.chars with
    | none => simp
    | some pos => simp [elsewhere, swept_eq found]

theorem prefix_swept (dataDir path : Path) : dataDir.chars <+: (swept dataDir path).chars :=
  List.prefix_append _ _

theorem not_sweeps_swept (dataDir path : Path) : ¬ sweeps dataDir (swept dataDir path) := by
  intro takes
  exact (sweeps_iff.mp takes).1 (prefix_swept dataDir path)

theorem swept_ne (takes : sweeps dataDir path) : swept dataDir path ≠ path := by
  intro same
  exact not_sweeps_swept dataDir path (same.symm ▸ takes)

/-- A path keeps its part below its own data directory if that ends at the first marker. -/
theorem swept_keeps_rel_iff {dataDir path dir : Path} {pos : Nat}
    (found : Text.find marker path.chars = some pos) :
    (∃ rel, path.chars = dir.chars ++ '/' :: rel ∧
        (swept dataDir path).chars = dataDir.chars ++ '/' :: rel) ↔
      dir.chars <+: path.chars ∧ dir.chars.length = pos := by
  have whole := List.take_append_drop pos path.chars
  have inside := (Text.find_spec found).1
  obtain ⟨rest, behind⟩ := (Text.find_spec found).2
  rw [swept_eq found]
  simp only [Path.rebase]
  constructor
  · rintro ⟨rel, old, new⟩
    have dropped := List.append_cancel_left new
    refine ⟨⟨_, old.symm⟩, ?_⟩
    have lengths := congrArg List.length old
    have lengths' := congrArg List.length dropped
    simp only [List.length_append, List.length_drop] at lengths lengths'
    omega
  · rintro ⟨⟨rest', old⟩, rfl⟩
    have dropped : path.chars.drop dir.chars.length = rest' := by
      rw [← old, List.drop_left]
    refine ⟨"fetch/".toList ++ rest, ?_, ?_⟩
    · rw [← old, ← dropped, ← behind]
      rfl
    · rw [← behind]
      rfl

/-! The table. -/

@[grind =]
def Table.sweep (table : Table) (dataDir : Path) : Table := (repairStaleLocalPaths table dataDir).1

theorem sweepRow_sweepRow (dataDir : Path) (row : MediaBlob) :
    sweepRow dataDir (sweepRow dataDir row) = sweepRow dataDir row := by
  cases stored : row.localPath with
  | none => simp [sweepRow, stored]
  | some path =>
    by_cases takes : sweeps dataDir path
    · simp [sweepRow, stored, takes, not_sweeps_swept]
    · simp [sweepRow, stored, takes]

theorem Table.sweep_sweep (table : Table) (dataDir : Path) :
    (table.sweep dataDir).sweep dataDir = table.sweep dataDir := by
  refine Table.ext ?_
  simp only [sweep, repairStaleLocalPaths, update, List.map_map]
  exact List.map_congr_left fun row _ => sweepRow_sweepRow dataDir row

theorem Table.localPath_sweep (table : Table) (dataDir : Path) (id : String) :
    (table.sweep dataDir).localPath id = (table.localPath id).map fun path =>
      if sweeps dataDir path then swept dataDir path else path := by
  rw [localPath, localPath, sweep, repairStaleLocalPaths, getMediaBlob_update]
  cases table.getMediaBlob id with
  | none => rfl
  | some row =>
    cases stored : row.localPath with
    | none => simp [sweepRow, stored]
    | some path => by_cases takes : sweeps dataDir path <;> simp [sweepRow, stored, takes]

theorem Table.sweep_healed {table : Table} {candidate : Path} {row : MediaBlob}
    (member : row ∈ table.rows) (stored : row.localPath = some path)
    (computed : candidateRepairedLocalPath path dataDir = some candidate) :
    (table.updateWhereId row.id (fun row => { row with localPath := some candidate })
      (fun _ => rfl) (fun _ => rfl)).sweep dataDir = table.sweep dataDir := by
  rw [candidate_eq_swept] at computed
  have takes : sweeps dataDir path := by
    by_contra stays
    simp [stays] at computed
  rw [if_pos takes] at computed
  cases computed
  refine Table.ext ?_
  simp only [sweep, repairStaleLocalPaths, updateWhereId, update, List.map_map]
  refine List.map_congr_left fun other there => ?_
  rw [Function.comp_apply]
  split
  · rename_i same
    cases List.inj_on_of_nodup_map table.ids there member same
    simp [sweepRow, stored, takes, not_sweeps_swept]
  · rfl

section

variable {fs : FileSystem} {dataDir : Path} {table : Table}

theorem build_eq {found : Option MediaBlob} {referenced : Bool}
    (there : ∀ row, found = some row → row ∈ table.rows) :
    (Heals fs dataDir found referenced →
      (buildBlobPathResponse fs dataDir table found referenced).1 = table.sweep dataDir) ∧
    (¬ Heals fs dataDir found referenced →
      (buildBlobPathResponse fs dataDir table found referenced).1 = table) := by
  constructor
  · rintro ⟨row, path, candidate, rfl, stored, missing, computed, present, refers⟩
    have member := there row rfl
    have self : table.getMediaBlob row.id = some row :=
      Table.getMediaBlob_eq_some_iff.mpr ⟨member, rfl⟩
    have referred : (row.blake3.isSome && !referenced) = false := by
      rcases refers with none | referenced <;> simp [*]
    have present' : (fs candidate).isNone = false := by
      cases entry : fs candidate <;> simp_all
    simp only [buildBlobPathResponse, stored, resolveBlobPathResponse, missing,
      trySelfHealMissingLocalPath, computed, present', updateBlobLocalPath, self, referred,
      Option.isSome_none, Bool.false_eq_true, if_false]
    exact Table.sweep_healed member stored computed
  · intro idle
    cases found with
    | none => rfl
    | some row =>
      have member := there row rfl
      have self : table.getMediaBlob row.id = some row :=
        Table.getMediaBlob_eq_some_iff.mpr ⟨member, rfl⟩
      cases stored : row.localPath with
      | none => simp [buildBlobPathResponse, stored]
      | some path =>
        simp only [buildBlobPathResponse, stored, resolveBlobPathResponse]
        split
        · rfl
        · rename_i missing
          have missing' : fs path = none := by simpa using missing
          unfold trySelfHealMissingLocalPath
          cases computed : candidateRepairedLocalPath path dataDir with
          | none => rfl
          | some candidate =>
            by_cases absent : (fs candidate).isNone
            · simp [absent]
            · have unreferred : row.blake3.isSome && !referenced := by
                by_contra refers
                refine idle ⟨row, path, candidate, rfl, stored, missing', computed, ?_, ?_⟩
                · simpa [Option.isSome_iff_ne_none] using absent
                · cases hash : row.blake3 <;> simp_all
              simp [absent, updateBlobLocalPath, self, unreferred]

theorem Repair.run_eq (repair : Repair) :
    (repair.Acts fs dataDir table → repair.run fs dataDir table = table.sweep dataDir) ∧
    (¬ repair.Acts fs dataDir table → repair.run fs dataDir table = table) := by
  cases repair with
  | staleLocalPaths => exact ⟨fun _ => rfl, fun idle => absurd trivial idle⟩
  | blobPath id referenced => exact build_eq fun row found => List.mem_of_find?_eq_some found
  | blobPathByBlake3 blake3 referenced =>
    exact build_eq fun row found => List.mem_of_find?_eq_some found

theorem Repair.run_run (repair : Repair) :
    repair.run fs dataDir (repair.run fs dataDir table) = repair.run fs dataDir table := by
  by_cases acts : repair.Acts fs dataDir table
  · rw [repair.run_eq.1 acts]
    by_cases again : repair.Acts fs dataDir (table.sweep dataDir)
    · rw [repair.run_eq.1 again, Table.sweep_sweep]
    · rw [repair.run_eq.2 again]
  · rw [repair.run_eq.2 acts, repair.run_eq.2 acts]

/-- A repair keeps its promises exactly if it rewrites no row, or every row that has the marker and is
not below the data directory can be moved there. -/
theorem repair_contract_iff (own : String → Option Path) (repair : Repair) :
    Contract fs dataDir own table repair ↔
      (repair.Acts fs dataDir table → ∀ row ∈ table.rows, ∀ path, row.localPath = some path →
        ¬ dataDir.chars <+: path.chars → (Text.find marker path.chars).isSome →
        Movable fs dataDir (own row.id) path) := by
  constructor
  · intro contract acts row member path stored elsewhere marked
    have takes : sweeps dataDir path := sweeps_iff.mpr ⟨elsewhere, marked⟩
    have before : table.localPath row.id = some path := by
      rw [Table.localPath, Table.getMediaBlob_eq_some_iff.mpr ⟨member, rfl⟩]
      exact stored
    have after : (repair.run fs dataDir table).localPath row.id = some (swept dataDir path) := by
      rw [repair.run_eq.1 acts, Table.localPath_sweep, before, Option.map_some, if_pos takes]
    obtain ⟨pos, found⟩ := Option.isSome_iff_exists.mp marked
    obtain ⟨dir, rel, owned, old, new⟩ :=
      contract.moved row.id path (swept dataDir path) before after (swept_ne takes)
    obtain ⟨inside, ends⟩ := (swept_keeps_rel_iff found).mp ⟨rel, old, new⟩
    refine ⟨dir, owned, inside, ends ▸ found, ?_⟩
    intro bytes file
    obtain ⟨path', stored', file'⟩ := contract.kept row.id path bytes before file
    rw [after] at stored'
    cases stored'
    rw [ends, ← swept_eq found]
    exact file'
  · intro movable
    refine ⟨?_, ?_, repair.run_run, fun path => candidate_eq_swept path dataDir⟩
    · intro id path bytes before file
      by_cases acts : repair.Acts fs dataDir table
      · rw [repair.run_eq.1 acts, Table.localPath_sweep, before, Option.map_some]
        refine ⟨_, rfl, ?_⟩
        split
        · rename_i takes
          obtain ⟨elsewhere, marked⟩ := sweeps_iff.mp takes
          obtain ⟨row, found, stored⟩ := Option.bind_eq_some_iff.mp before
          obtain ⟨member, rfl⟩ := Table.getMediaBlob_eq_some_iff.mp found
          obtain ⟨dir, owned, inside, ends, same⟩ :=
            movable acts row member path stored elsewhere marked
          rw [swept_eq ends]
          exact same bytes file
        · exact file
      · rw [repair.run_eq.2 acts]
        exact ⟨path, before, file⟩
    · intro id path path' before after differs
      by_cases acts : repair.Acts fs dataDir table
      · rw [repair.run_eq.1 acts, Table.localPath_sweep, before, Option.map_some] at after
        have takes : sweeps dataDir path := by
          by_contra stays
          rw [if_neg stays] at after
          exact differs (Option.some.inj after).symm
        rw [if_pos takes] at after
        cases after
        obtain ⟨elsewhere, marked⟩ := sweeps_iff.mp takes
        obtain ⟨row, found, stored⟩ := Option.bind_eq_some_iff.mp before
        obtain ⟨member, rfl⟩ := Table.getMediaBlob_eq_some_iff.mp found
        obtain ⟨dir, owned, inside, ends, -⟩ :=
          movable acts row member path stored elsewhere marked
        obtain ⟨rel, old, new⟩ := (@swept_keeps_rel_iff dataDir path dir _ ends).mpr ⟨inside, rfl⟩
        exact ⟨dir, rel, owned, old, new⟩
      · rw [repair.run_eq.2 acts, before] at after
        exact absurd (Option.some.inj after).symm differs

end

/-! A desktop that fetches music into a directory of its own. -/

def desktopDataDir : Path := ⟨"/home".toList, by decide⟩

def staleSong : MediaBlob where
  id := "stale"
  localPath := some ⟨"/old/fetch/a".toList, by decide⟩
  blobType := .original
  blake3 := none
  deleted := false

def fetchedSong : MediaBlob where
  id := "fetched"
  localPath := some ⟨"/music/fetch/b".toList, by decide⟩
  blobType := .original
  blake3 := none
  deleted := false

def desktopFiles : FileSystem := fun path =>
  if path.chars = "/home/fetch/a".toList then some (.file [1])
  else if path.chars = "/music/fetch/b".toList then some (.file [2])
  else none

/-- The path of one stale song is asked for, and a song that lay where it should is lost. -/
theorem sweep_breaks_good_path :
    ¬ Contract desktopFiles desktopDataDir (fun _ => none) ⟨[staleSong, fetchedSong], by decide, by decide⟩
      (.blobPath "stale" true) := by
  intro contract
  obtain ⟨path, stored, file⟩ := contract.kept "fetched" ⟨"/music/fetch/b".toList, by decide⟩ [2]
    (by decide) (by decide)
  have swept : path = ⟨"/home/fetch/b".toList, by decide⟩ := by
    refine Option.some.inj (stored.symm.trans ?_)
    decide
  subst swept
  exact absurd file (by decide)

end Tomb.Grimoire.MediaBlobz
