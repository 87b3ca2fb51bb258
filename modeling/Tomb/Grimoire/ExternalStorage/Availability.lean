import Mathlib.Algebra.Group.Int.Defs
import Tomb.Grimoire.ExternalStorage.SyncPriority

/-! Snapshots of which volumes are mounted where: the states of the sources, the paths of their media and
the scans to come. -/
namespace Tomb.Grimoire.ExternalStorage
open Tomb.Lib

inductive MediaDomain where
  | music
  | video
  deriving DecidableEq

structure ScanDirectoryParams where
  directoryPath : Path
  recursive : Bool
  maxDepth : Option Nat
  fileExtensions : Option (List String)
  skipTrackedSubdirs : Bool
  domain : Option MediaDomain

inductive JobStatus where
  | pending
  | running
  | completed
  | failed
  | cancelled
  deriving DecidableEq

structure ScanJob where
  status : JobStatus
  parameters : ScanDirectoryParams
  maxRetries : Nat
  scheduledAt : Int

structure Storage where
  db : Database
  jobz : List ScanJob

def offlineConfirmationSeconds : Int := 5

def i64Min : Int := -2 ^ 63

def i64Max : Int := 2 ^ 63 - 1

def saturatingSub (a b : Int) : Int := max i64Min (min i64Max (a - b))

def isTrimmed (windows : Bool) (c : Char) : Bool := c = '/' || (windows && c = '\\')

def trimEndMatches (windows : Bool) (text : List Char) : List Char := text.rdropWhile (isTrimmed windows)

namespace Database

variable (db : Database)

def relocates (sourceId : String) (windows : Bool) (old : List Char) (blob : MediaBlob) : Bool :=
  match blob.localPath with
  | some path =>
    (⟨blob.id, sourceId⟩ : SourceMedia) ∈ db.librarySourceMediaz.rows &&
      (path.chars = old || Sqlite.substr path.chars 1 (Sqlite.length old + 1) = old ++ ['/'] ||
        (windows && Sqlite.substr path.chars 1 (Sqlite.length old + 1) = old ++ ['\\']))
  | none => false

def relocated (old new : Path) (path : Path) : Path where
  chars := new.chars ++ Sqlite.substrFrom path.chars (Sqlite.length old.chars + 1)
  noNul member := by
    rcases List.mem_append.mp member with member | member
    · exact new.noNul member
    · exact path.noNul ((List.takeWhile_prefix _).subset (List.mem_of_mem_drop member))

def trimmedPath (windows : Bool) (path : Path) : Path where
  chars := trimEndMatches windows path.chars
  noNul member := path.noNul ((List.rdropWhile_prefix _ _).subset member)

def relocateBlobs (sourceId : String) (windows : Bool) (old new : Path) : Option Database :=
  (db.mediaBlobz.rows.filter (db.relocates sourceId windows old.chars)).foldlM
    (fun db blob => db.updateBlobPath blob.id (blob.localPath.map (relocated old new))) db

def setLastKnownPath (id : String) (root : Path) : Database :=
  { db with
    librarySourcez := db.librarySourcez.update (·.id = id)
      (fun source => { source with lastKnownPath := root }) fun _ => rfl }

def relocateSource (source : LibrarySource) (root : Path) : Option Database := do
  let db ← db.insertPathOrIgnore ⟨source.id, root⟩
  let windows := source.lastKnownPath.chars.head? ≠ some '/'
  let oldPrefix := trimmedPath windows source.lastKnownPath
  let newPrefix := trimmedPath windows root
  let db ← db.relocateBlobs source.id windows oldPrefix newPrefix
  some (db.setLastKnownPath source.id root)

def upsertState (state : SourceState) : Option Database :=
  if state.missingSince.all (· ≤ state.checkedAt) then
    some { db with librarySourceStatez := db.librarySourceStatez.upsert state }
  else none

end Database

def SourceDomain.mediaDomain : SourceDomain → Option MediaDomain
  | .both => none
  | .music => some .music
  | .video => some .video

/-- A scan that the query takes for the one to enqueue, whatever its other options are. -/
def ScanJob.queued (startupOnly : Bool) (root : Path) (domain : SourceDomain) (job : ScanJob) : Bool :=
  (job.status = .pending || (startupOnly && job.status = .running)) &&
    job.parameters.directoryPath = root &&
    (job.parameters.domain = none || job.parameters.domain = domain.mediaDomain)

def enqueueSourceScan (jobs : List ScanJob) (source : LibrarySource) (root : Path) (now : Int)
    (startupOnly : Bool) : List ScanJob :=
  if jobs.any (·.queued startupOnly root source.domain) then jobs
  else
    jobs ++ [{
      status := .pending
      parameters :=
        { directoryPath := root
          recursive := true
          maxDepth := none
          fileExtensions := none
          skipTrackedSubdirs := false
          domain := source.domain.mediaDomain }
      maxRetries := 3
      scheduledAt := now }]

def nextState (previous : Option SourceState) (sourceId : String) (present : Bool) (now : Int) :
    SourceState :=
  let previousStatus := (previous.map (·.status)).getD .unknown
  let missingSince := if present then none else some ((previous.bind (·.missingSince)).getD now)
  let status :=
    if present then .online
    else if missingSince.any fun since =>
        saturatingSub now since ≥ offlineConfirmationSeconds then .offline
    else previousStatus
  { sourceId
    status
    missingSince
    checkedAt := now
    changedAt := if status = previousStatus then (previous.map (·.changedAt)).getD now else now }

/-- A scan is due unless the source was at its root before, and on a start even then. -/
def scanIfDue (storage : Storage) (now : Int) (startup : Bool) (source : LibrarySource) (root : Path) :
    List ScanJob :=
  let previous := storage.db.librarySourceStatez.get source.id
  let previousStatus := (previous.map (·.status)).getD .unknown
  let wasMissing := previous.any (·.missingSince.isSome)
  let relocated := root ≠ source.lastKnownPath
  if startup || previousStatus ≠ .online || wasMissing || relocated then
    enqueueSourceScan storage.jobz source root now
      (startup && previousStatus = .online && !wasMissing && !relocated)
  else storage.jobz

def relocateIfMoved (db : Database) (source : LibrarySource) (root : Path) : Option Database :=
  if root ≠ source.lastKnownPath then db.relocateSource source root else some db

def applyPresent (targets : List SyncTarget) (now : Int) (startup : Bool) (storage : Storage)
    (source : LibrarySource) (root : Path) : Option Storage := do
  let previous := storage.db.librarySourceStatez.get source.id
  if root ≠ source.lastKnownPath && isSyncSource targets { source with lastKnownPath := root } then
    some storage
  else
    let db ← relocateIfMoved storage.db source root
    let db ← db.upsertState (nextState previous source.id true now)
    some ⟨db, scanIfDue storage now startup source root⟩

def applyAbsent (now : Int) (storage : Storage) (source : LibrarySource) : Option Storage := do
  let previous := storage.db.librarySourceStatez.get source.id
  let db ← storage.db.upsertState (nextState previous source.id false now)
  some ⟨db, storage.jobz⟩

def applySource (targets : List SyncTarget) (now : Int) (startup : Bool) (storage : Storage)
    (observation : LibrarySource × Option Path) : Option Storage :=
  let (source, root) := observation
  if isSyncSource targets source then some storage
  else if (storage.db.librarySourcez.get source.id).map (·.lastKnownPath) ≠
      some source.lastKnownPath then none
  else if (storage.db.librarySourceStatez.get source.id).any fun state => state.checkedAt > now then
    some storage
  else
    match root with
    | some root => applyPresent targets now startup storage source root
    | none => applyAbsent now storage source

def applySnapshot (storage : Storage) (sources : List LibrarySource) (roots : List (Option Path))
    (now : Int) (startup : Bool) : Option Storage :=
  if sources.length ≠ roots.length then none
  else (sources.zip roots).foldlM (applySource storage.db.listTargets now startup) storage

namespace Database

variable {db next : Database}

theorem updateBlobPath_eq {id : String} {localPath : Option Path}
    (done : db.updateBlobPath id localPath = some next) :
    ∃ blobs medias, next = { db with mediaBlobz := blobs, librarySourceMediaz := medias } := by
  unfold updateBlobPath at done
  split at done
  · exact ⟨db.mediaBlobz, db.librarySourceMediaz, (Option.some.inj done).symm⟩
  · unfold trgLibrarySourceMediaBlobPathUpdate at done
    dsimp only at done
    split at done
    · obtain ⟨medias, rfl⟩ := insertFromView_eq done
      exact ⟨_, medias, rfl⟩
    · exact ⟨_, db.librarySourceMediaz, (Option.some.inj done).symm⟩

theorem relocateBlobs_eq {sourceId : String} {windows : Bool} {old new : Path}
    (done : db.relocateBlobs sourceId windows old new = some next) :
    ∃ blobs medias, next = { db with mediaBlobz := blobs, librarySourceMediaz := medias } := by
  unfold relocateBlobs at done
  generalize db.mediaBlobz.rows.filter (db.relocates sourceId windows old.chars) = rows at done
  induction rows generalizing db with
  | nil => exact ⟨db.mediaBlobz, db.librarySourceMediaz, (Option.some.inj done).symm⟩
  | cons blob rest ih =>
    rw [List.foldlM_cons] at done
    obtain ⟨between, first, later⟩ := Option.bind_eq_some_iff.mp done
    obtain ⟨blobs, medias, rfl⟩ := updateBlobPath_eq first
    obtain ⟨blobs', medias', rfl⟩ := ih later
    exact ⟨blobs', medias', rfl⟩

theorem relocateSource_eq {source : LibrarySource} {root : Path}
    (done : db.relocateSource source root = some next) :
    ∃ blobs paths medias, next = { db.setLastKnownPath source.id root with
      mediaBlobz := blobs
      librarySourcePathz := paths
      librarySourceMediaz := medias } := by
  obtain ⟨first, recorded, done⟩ := Option.bind_eq_some_iff.mp done
  obtain ⟨second, moved, done⟩ := Option.bind_eq_some_iff.mp done
  cases Option.some.inj done
  obtain ⟨paths, medias, rfl⟩ := insertPathOrIgnore_eq recorded
  obtain ⟨blobs, medias', rfl⟩ := relocateBlobs_eq moved
  exact ⟨blobs, paths, medias', rfl⟩

theorem upsertState_eq {state : SourceState} (done : db.upsertState state = some next) :
    next = { db with librarySourceStatez := db.librarySourceStatez.upsert state } := by
  unfold upsertState at done
  split at done
  · exact (Option.some.inj done).symm
  · cases done

end Database

@[grind =] def counts (targets : List SyncTarget) (now : Int) (storage : Storage)
    (observation : LibrarySource × Option Path) : Bool :=
  let (source, root) := observation
  !isSyncSource targets source &&
    !(storage.db.librarySourceStatez.get source.id).any (fun state => state.checkedAt > now) &&
    !root.any fun root => root ≠ source.lastKnownPath &&
      isSyncSource targets { source with lastKnownPath := root }

variable {targets : List SyncTarget} {storage : Storage} {source : LibrarySource}
  {root : Option Path}

theorem counts_recent {now : Int}
    (taken : counts targets now storage (source, root) = true) {state : SourceState}
    (known : storage.db.librarySourceStatez.get source.id = some state) : state.checkedAt ≤ now := by
  simp only [counts, known, Option.any_some, Bool.and_eq_true, Bool.not_eq_true',
    decide_eq_false_iff_not] at taken
  exact Int.not_lt.mp taken.1.2

/-- What becomes of the media of a source that is found at a root or is not found. -/
inductive Moved (db : Database) (source : LibrarySource) : Option Path → Database → Prop where
  | absent : Moved db source none db
  | there : Moved db source (some source.lastKnownPath) db
  | relocated {root : Path} {next : Database} (elsewhere : root ≠ source.lastKnownPath)
      (done : db.relocateSource source root = some next) : Moved db source (some root) next

def observed (storage : Storage) (now : Int) (source : LibrarySource) (root : Option Path) :
    SourceState :=
  nextState (storage.db.librarySourceStatez.get source.id) source.id root.isSome now

inductive Applied (targets : List SyncTarget) (now : Int) (startup : Bool) (storage : Storage)
    (source : LibrarySource) (root : Option Path) : Storage → Prop where
  | passed (ignored : counts targets now storage (source, root) = false) :
      Applied targets now startup storage source root storage
  | counted (taken : counts targets now storage (source, root) = true)
      (unchanged : (storage.db.librarySourcez.get source.id).map (·.lastKnownPath) =
        some source.lastKnownPath)
      {db : Database} (moved : Moved storage.db source root db) :
      Applied targets now startup storage source root
        ⟨{ db with librarySourceStatez :=
            storage.db.librarySourceStatez.upsert (observed storage now source root) },
          root.elim storage.jobz (scanIfDue storage now startup source)⟩

theorem Moved.statez {db next : Database}
    (moved : Moved db source root next) : next.librarySourceStatez = db.librarySourceStatez := by
  cases moved with
  | absent => rfl
  | there => rfl
  | relocated _ done =>
    obtain ⟨_, _, _, rfl⟩ := Database.relocateSource_eq done
    rfl

theorem applyPresent_applied {now : Int} {startup : Bool} {next : Storage} {root : Path}
    (reserved : isSyncSource targets source = false)
    (unchanged : (storage.db.librarySourcez.get source.id).map (·.lastKnownPath) =
      some source.lastKnownPath)
    (recent : (storage.db.librarySourceStatez.get source.id).any (fun state => state.checkedAt > now) =
      false) (done : applyPresent targets now startup storage source root = some next) :
    Applied targets now startup storage source (some root) next := by
  unfold applyPresent at done
  dsimp only at done
  split at done
  · rename_i registered
    cases Option.some.inj done
    refine .passed ?_
    rw [counts, reserved, recent]
    simpa using registered
  · rename_i free
    have taken : counts targets now storage (source, some root) = true := by
      have free := Bool.eq_false_iff.mpr free
      rw [counts, reserved, recent, Option.any_some]
      rw [free]
      rfl
    obtain ⟨db, moved, done⟩ := Option.bind_eq_some_iff.mp done
    obtain ⟨last, upserted, done⟩ := Option.bind_eq_some_iff.mp done
    cases Option.some.inj done
    have moved : Moved storage.db source (some root) db := by
      unfold relocateIfMoved at moved
      split at moved
      · rename_i elsewhere
        exact .relocated elsewhere moved
      · rename_i same
        cases Option.some.inj moved
        rw [not_not.mp same]
        exact .there
    have upserted := Database.upsertState_eq upserted
    rw [moved.statez] at upserted
    rw [upserted]
    exact .counted taken unchanged moved

theorem applySource_applied {now : Int} {startup : Bool} {next : Storage}
    (done : applySource targets now startup storage (source, root) = some next) :
    Applied targets now startup storage source root next := by
  unfold applySource at done
  dsimp only at done
  split at done
  · rename_i reserved
    cases Option.some.inj done
    exact .passed (by rw [counts, reserved]; rfl)
  · rename_i free
    have free := Bool.eq_false_iff.mpr free
    split at done
    · cases done
    · rename_i unchanged
      have unchanged := not_not.mp unchanged
      split at done
      · rename_i stale
        cases Option.some.inj done
        exact .passed (by rw [counts, free, stale]; rfl)
      · rename_i recent
        have recent := Bool.eq_false_iff.mpr recent
        cases root with
        | some root => exact applyPresent_applied free unchanged recent done
        | none =>
          obtain ⟨db, upserted, done⟩ := Option.bind_eq_some_iff.mp done
          cases Option.some.inj done
          rw [Database.upsertState_eq upserted]
          exact .counted (by rw [counts, free, recent]; rfl) unchanged .absent

end Tomb.Grimoire.ExternalStorage
