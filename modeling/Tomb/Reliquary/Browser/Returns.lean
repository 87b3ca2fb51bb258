import Tomb.Lib.Runs
import Tomb.Reliquary.Blobz
import Tomb.Reliquary.Browser.Store

/-! What was stored is read again, in whatever order the calls go on, where the browser does what it
reports and no deletion runs beside a store of the same contents. -/
namespace Tomb.Reliquary.Browser
open Tomb.Lib

/-! The file of a name after a write. -/

section Files

variable (storage : Storage) (backend : BackendName) (id : String)

theorem put_bytes (content : Option Bytes) (other : BackendName) (name : String) :
    (storage.put backend id content).bytes other name =
      if other = backend ∧ name = id then content else storage.bytes other name := rfl

end Files

def Stage.running : Stage → Bool
  | .resolved _ | .deleted | .failed => false
  | _ => true

def Stage.removes : Stage → Bool
  | .removing _ _ | .deletingRecord _ => true
  | _ => false

namespace World

variable (world : World)

def Storing (data : Bytes) : Prop :=
  ∃ (i : Nat) (call : Call) (stage : Stage), world.calls[i]? = some (call, stage) ∧ call.content = some data ∧
    stage.running = true

def Deleting (id : String) : Prop :=
  ∃ (i : Nat) (call : Call) (stage : Stage), world.calls[i]? = some (call, stage) ∧ call.deletes = some id ∧
    stage.running = true

def Removing (id : String) : Prop :=
  ∃ (i : Nat) (call : Call) (stage : Stage), world.calls[i]? = some (call, stage) ∧ call.deletes = some id ∧
    stage.removes = true

end World

theorem Stage.running_of_removes {stage : Stage} (removes : stage.removes = true) :
    stage.running = true := by
  cases stage <;> first | rfl | cases removes

theorem World.Removing.deleting {world : World} {id : String} (removing : world.Removing id) :
    world.Deleting id := by
  obtain ⟨i, call, stage, held, names, removes⟩ := removing
  exact ⟨i, call, stage, held, names, stage.running_of_removes removes⟩

section Conditions

variable (platform : Platform) (options : BlobStoreOptions)

def Outcome.harmless (outcome : Outcome) : Prop := outcome.fault = none ∨ outcome.fault = some none

/-- The browser does what it reports, and can read again what it has written. -/
def Works (outcome : Outcome) : Stage → Prop
  | .hashing _ _ => outcome.rejects = true ∨ outcome.hasher = true
  | .writing (.opfs :: _) _ _ _ => platform.opfsSupported = true →
      outcome.harmless ∧
        (outcome.rejects = false → outcome.fault = none ∧ platform.opfsReadable = true)
  | .streaming _ _ => outcome.aborted = false → outcome.rejects = false → outcome.hasher = true →
      outcome.fault = none ∧ .opfs ∈ options.chain ∧ platform.reads .opfs = true
  | .moving _ _ _ _ => outcome.harmless ∧ (outcome.rejects = false → outcome.fault = none)
  | .deletingRecord _ => outcome.rejects = false
  | _ => True

def Fits : Op → World → Prop
  | .start call, world =>
    (∀ data, call.content = some data → ¬ world.Deleting (platform.hash data)) ∧
      ∀ data, call.deletes = some (platform.hash data) → ¬ world.Storing data
  | .advance index outcome, world => ∀ call stage, world.calls[index]? = some (call, stage) →
      Works platform options outcome stage

def Readable (storage : Storage) (data : Bytes) : Prop :=
  ∃ backend ∈ options.chain, platform.reads backend = true ∧
    storage.bytes backend (platform.hash data) = some data

def Honest (storage : Storage) : Prop :=
  ∀ backend ∈ options.chain, ∀ data content,
    storage.bytes backend (platform.hash data) = some content → content = data

/-- The storage before the calls: nothing is filed wrongly, and no record is without its bytes. -/
structure Intact (storage : Storage) : Prop where
  honest : Honest platform options storage
  whole : ∀ data record, storage.records.get (platform.hash data) = some record →
    Readable platform options storage data

def Knows (storage : Storage) (call : Call) : Stage → Prop
  | .hashing data _ => call.content = some data
  | .lookup id data _ => call.content = some data ∧ id = platform.hash data
  | .writing rest id data _ => call.content = some data ∧ id = platform.hash data ∧
      ∀ backend ∈ rest, backend ∈ options.chain
  | .putting record data => call.content = some data ∧ record.blobId = platform.hash data ∧
      Readable platform options storage data
  | .streaming file _ | .reading file _ => call.content = some file.content
  | .finishing file _ temporary id | .moving file _ temporary id =>
    call.content = some file.content ∧ id = platform.hash file.content ∧
      temporary = file.content ∧ .opfs ∈ options.chain ∧ platform.reads .opfs = true
  | .streamLookup file _ id => call.content = some file.content ∧
      id = platform.hash file.content ∧ Readable platform options storage file.content
  | .streamPutting file _ record => call.content = some file.content ∧
      record.blobId = platform.hash file.content ∧ Readable platform options storage file.content
  | .deleteLookup id | .removing id _ | .deletingRecord id => call.deletes = some id
  | .resolved _ | .deleted | .failed => True

inductive Change (call : Call) (storage : Storage) : Storage → Prop where
  | same : Change call storage storage
  | wrote {data : Bytes} {backend : BackendName} (content : call.content = some data)
      (listed : backend ∈ options.chain) :
      Change call storage (storage.put backend (platform.hash data) (some data))
  | recorded {data : Bytes} {record : BlobRecord} (content : call.content = some data)
      (named : record.blobId = platform.hash data) (readable : Readable platform options storage data) :
      Change call storage { storage with records := storage.records.upsert record }
  | removed {id : String} {backend : BackendName} (deletes : call.deletes = some id) :
      Change call storage (storage.put backend id none)
  | unrecorded {id : String} (deletes : call.deletes = some id) :
      Change call storage { storage with records := storage.records.deleteWhere (·.blobId = id) }

/-- What has been stored stays where a reader looks, and every promise can be kept. -/
structure Sound (world : World) : Prop where
  honest : Honest platform options world.storage
  whole : ∀ data record, world.storage.records.get (platform.hash data) = some record →
    ¬ world.Removing (platform.hash data) → Readable platform options world.storage data
  apart : ∀ data, world.Storing data → ¬ world.Deleting (platform.hash data)
  knows : ∀ (i : Nat) call stage, world.calls[i]? = some (call, stage) →
    Knows platform options world.storage call stage
  resolved : ∀ debt ∈ world.resolved, debt.1 = platform.hash debt.2
  owed : ∀ debt ∈ world.owed, debt.1 = platform.hash debt.2 ∧
    (∃ record, world.storage.records.get debt.1 = some record) ∧ ¬ world.Deleting debt.1

end Conditions

section Changes

variable {platform : Platform} {options : BlobStoreOptions} {call : Call} {storage next : Storage}

theorem Change.honest (collisionFree : Function.Injective platform.hash)
    (change : Change platform options call storage next)
    (honest : Honest platform options storage) : Honest platform options next := by
  intro backend listed data content held
  cases change with
  | same => exact honest backend listed data content held
  | recorded | unrecorded => exact honest backend listed data content held
  | wrote given chained =>
    rw [put_bytes] at held
    split at held
    · rename_i here
      rw [collisionFree here.2]
      exact (Option.some.inj held).symm
    · exact honest backend listed data content held
  | removed deletes =>
    rw [put_bytes] at held
    split at held
    · cases held
    · exact honest backend listed data content held

theorem Change.readable (collisionFree : Function.Injective platform.hash)
    (change : Change platform options call storage next) {data : Bytes}
    (kept : call.deletes ≠ some (platform.hash data))
    (readable : Readable platform options storage data) : Readable platform options next data := by
  obtain ⟨backend, listed, reads, held⟩ := readable
  refine ⟨backend, listed, reads, ?_⟩
  cases change with
  | same => exact held
  | recorded | unrecorded => exact held
  | wrote given chained =>
    rw [put_bytes]
    split
    · rename_i here
      rw [collisionFree here.2]
    · exact held
  | removed deletes =>
    rw [put_bytes]
    split
    · rename_i here
      exact absurd (deletes.trans (congrArg some here.2.symm)) kept
    · exact held

theorem Change.record (change : Change platform options call storage next) {id : String}
    (kept : call.deletes ≠ some id) {record : BlobRecord}
    (known : storage.records.get id = some record) :
    ∃ record, next.records.get id = some record := by
  cases change with
  | same | wrote | removed => exact ⟨record, known⟩
  | recorded content named readable =>
    rename_i added
    by_cases same : id = added.blobId
    · exact ⟨added, by rw [Table.get_upsert, if_pos same]⟩
    · exact ⟨record, by rw [Table.get_upsert, if_neg same]; exact known⟩
  | unrecorded deletes =>
    rename_i deleted
    have other : id ≠ deleted := fun same => kept (deletes.trans (congrArg some same.symm))
    refine ⟨record, ?_⟩
    rw [Table.get_deleteWhere_of_none]
    · exact known
    · intro row named
      exact decide_eq_false (by rw [named]; exact other)

theorem Change.record_of_next (collisionFree : Function.Injective platform.hash)
    (change : Change platform options call storage next) {data : Bytes} {record : BlobRecord}
    (known : next.records.get (platform.hash data) = some record) :
    (∃ record, storage.records.get (platform.hash data) = some record) ∨
      Readable platform options storage data := by
  cases change with
  | same | wrote | removed => exact .inl ⟨record, known⟩
  | recorded content named readable =>
    rw [Table.get_upsert] at known
    split at known
    · rename_i same
      rw [named] at same
      rw [collisionFree same]
      exact .inr readable
    · exact .inl ⟨record, known⟩
  | unrecorded deletes =>
    obtain ⟨listed, named⟩ := (Table.get_eq_some _ _ _).mp known
    have before := ((Table.mem_deleteWhere _ _ _).mp listed).1
    exact .inl ⟨record, (Table.get_eq_some _ _ _).mpr ⟨before, named⟩⟩

/-- What a call knows stays true while the contents of it are not deleted. -/
theorem Change.knows (collisionFree : Function.Injective platform.hash)
    (change : Change platform options call storage next) {other : Call} {stage : Stage}
    (apart : ∀ data, other.content = some data → stage.running = true →
      call.deletes ≠ some (platform.hash data))
    (knows : Knows platform options storage other stage) :
    Knows platform options next other stage := by
  cases stage with
  | putting | streamLookup | streamPutting =>
    obtain ⟨content, named, readable⟩ := knows
    exact ⟨content, named, change.readable collisionFree (apart _ content rfl) readable⟩
  | _ => exact knows

end Changes

section Advances

variable {platform : Platform} {options : BlobStoreOptions} {call : Call} {storage next : Storage}
  {stage later : Stage} {outcome : Outcome}

/-- What one step of a call does, with what the call knows behind it. -/
structure Advanced (platform : Platform) (options : BlobStoreOptions) (call : Call)
    (storage : Storage) (stage : Stage) (later : Stage) (next : Storage) : Prop where
  change : Change platform options call storage next
  knows : Knows platform options next call later
  keeps : ∀ debt ∈ promise call later, call.content = some debt.2 ∧
    debt.1 = platform.hash debt.2 ∧ ∃ record, next.records.get debt.1 = some record
  quiet : ∀ id, call.deletes = some id → stage.removes = false → next = storage
  ends : ∀ id, call.deletes = some id → stage.removes = true → later.removes = false →
    next.records.get id = none

variable {data : Bytes}

theorem Call.deletes_of_content (content : call.content = some data) : call.deletes = none := by
  cases call with
  | storeBlob | storeBlobFromFile => rfl
  | deleteBlob => cases content

variable {id : String}

theorem Call.content_of_deletes (deletes : call.deletes = some id) : call.content = none := by
  cases call with
  | storeBlob | storeBlobFromFile => cases deletes
  | deleteBlob => rfl

theorem Advanced.storing (content : call.content = some data)
    (change : Change platform options call storage next)
    (knows : Knows platform options next call later) (silent : promise call later = []) :
    Advanced platform options call storage stage later next := by
  have none := call.deletes_of_content content
  constructor
  · exact change
  · exact knows
  · rw [silent]
    exact fun debt member => nomatch member
  · intro id deletes
    rw [none] at deletes
    cases deletes
  · intro id deletes
    rw [none] at deletes
    cases deletes

variable {record : BlobRecord}

theorem Advanced.resolving {known : BlobRecord}
    (content : call.content = some data) (change : Change platform options call storage next)
    (named : record.blobId = platform.hash data)
    (there : next.records.get (platform.hash data) = some known) :
    Advanced platform options call storage stage (.resolved record) next := by
  have none := call.deletes_of_content content
  constructor
  · exact change
  · trivial
  · intro debt member
    simp only [promise, content, Option.toList_some, List.map_cons, List.map_nil,
      List.mem_singleton] at member
    subst member
    exact ⟨content, named, known, by rw [named]; exact there⟩
  · intro id deletes
    rw [none] at deletes
    cases deletes
  · intro id deletes
    rw [none] at deletes
    cases deletes

theorem advance_hashing {info : NewBlobMeta}
    (advanced : advance platform options outcome storage (.hashing data info) = some (later, next))
    (works : Works platform options outcome (.hashing data info))
    (content : call.content = some data) :
    Advanced platform options call storage (.hashing data info) later next := by
  dsimp only [advance] at advanced
  split at advanced
  · cases advanced
    exact .storing content .same trivial rfl
  · rename_i answered
    cases advanced
    have hasher : outcome.hasher = true := works.resolve_left answered
    exact .storing content .same ⟨content, by rw [if_pos hasher]⟩ rfl

theorem advance_lookup {info : NewBlobMeta}
    (advanced : advance platform options outcome storage (.lookup id data info) = some (later, next))
    (knows : Knows platform options storage call (.lookup id data info)) :
    Advanced platform options call storage (.lookup id data info) later next := by
  obtain ⟨content, rfl⟩ := knows
  dsimp only [advance] at advanced
  split at advanced
  · cases advanced
    exact .storing content .same trivial rfl
  · split at advanced
    · rename_i existing found
      cases advanced
      exact .resolving content .same ((Table.get_eq_some _ _ _).mp found).2 found
    · cases advanced
      exact .storing content .same ⟨content, rfl, fun _ member => member⟩ rfl

/-- A write that does no harm, whether it says that it was made or not. -/
theorem Outcome.harmless.change (harmless : outcome.harmless)
    (content : call.content = some data) (listed : .opfs ∈ options.chain) :
    Change platform options call storage
      (storage.write .opfs (platform.hash data) data outcome.fault) := by
  rcases harmless with none | untouched
  · rw [none]
    exact .wrote content listed
  · rw [untouched]
    exact .same

theorem readable_put {backend : BackendName} (listed : backend ∈ options.chain)
    (reads : platform.reads backend = true) :
    Readable platform options (storage.put backend (platform.hash data) (some data)) data :=
  ⟨backend, listed, reads, by rw [put_bytes, if_pos ⟨rfl, rfl⟩]⟩

theorem advance_writing {rest : List BackendName} {info : NewBlobMeta}
    (advanced : advance platform options outcome storage (.writing rest id data info) =
      some (later, next)) (works : Works platform options outcome (.writing rest id data info))
    (knows : Knows platform options storage call (.writing rest id data info)) :
    Advanced platform options call storage (.writing rest id data info) later next := by
  obtain ⟨content, rfl, chained⟩ := knows
  cases rest with
  | nil =>
    cases advanced
    exact .storing content .same trivial rfl
  | cons backend rest =>
    have listed := chained backend List.mem_cons_self
    have others : ∀ other ∈ rest, other ∈ options.chain :=
      fun other member => chained other (List.mem_cons_of_mem _ member)
    obtain ⟨rfl, rfl⟩ := Prod.ext_iff.mp (Option.some.inj advanced)
    dsimp only [write]
    split
    · rename_i available
      cases backend with
      | opfs =>
        obtain ⟨harmless, honestly⟩ := works available
        split
        · exact .storing content (harmless.change content listed) ⟨content, rfl, others⟩ rfl
        · rename_i resolves
          obtain ⟨whole, readable⟩ := honestly (Bool.eq_false_iff.mpr resolves)
          have reads : platform.reads .opfs = true := Bool.and_eq_true_iff.mpr ⟨available, readable⟩
          refine .storing content (harmless.change content listed) ⟨content, rfl, ?_⟩ rfl
          rw [whole]
          exact readable_put listed reads
      | cache =>
        dsimp only
        split
        · exact .storing content .same ⟨content, rfl, others⟩ rfl
        · exact .storing content (.wrote content listed)
            ⟨content, rfl, readable_put listed available⟩ rfl
    · exact .storing content .same ⟨content, rfl, others⟩ rfl

theorem get_put (storage : Storage) (record : BlobRecord) :
    (storage.records.upsert record).get record.blobId = some record := by
  rw [Table.get_upsert, if_pos rfl]

theorem advance_putting
    (advanced : advance platform options outcome storage (.putting record data) = some (later, next))
    (knows : Knows platform options storage call (.putting record data)) :
    Advanced platform options call storage (.putting record data) later next := by
  obtain ⟨content, named, readable⟩ := knows
  dsimp only [advance] at advanced
  split at advanced
  · cases advanced
    exact .storing content .same trivial rfl
  · cases advanced
    have there := get_put storage record
    rw [named] at there
    exact .resolving content (.recorded content named readable) named there

variable {info : PartialMeta} {file : File}

theorem advance_streaming
    (advanced : advance platform options outcome storage (.streaming file info) = some (later, next))
    (works : Works platform options outcome (.streaming file info))
    (content : call.content = some file.content) :
    Advanced platform options call storage (.streaming file info) later next := by
  dsimp only [advance] at advanced
  split at advanced
  · cases advanced
    exact .storing content .same trivial rfl
  · rename_i going
    split at advanced
    · cases advanced
      exact .storing content .same content rfl
    · rename_i answered
      obtain ⟨resolves, hashes⟩ := not_or.mp (fun either => answered (Bool.or_eq_true_iff.mpr either))
      obtain ⟨whole, listed, reads⟩ := works (Bool.eq_false_iff.mpr going)
        (Bool.eq_false_iff.mpr resolves) (by simpa using hashes)
      cases advanced
      refine .storing content .same ⟨content, rfl, ?_, listed, reads⟩ rfl
      rw [whole]
      rfl

theorem advance_finishing {temporary : Bytes}
    (advanced : advance platform options outcome storage (.finishing file info temporary id) =
      some (later, next))
    (knows : Knows platform options storage call (.finishing file info temporary id))
    (honest : Honest platform options storage) :
    Advanced platform options call storage (.finishing file info temporary id) later next := by
  obtain ⟨content, rfl, complete, listed, reads⟩ := knows
  dsimp only [advance] at advanced
  split at advanced
  · cases advanced
    exact .storing content .same content rfl
  · split at advanced
    · rename_i taken
      cases advanced
      obtain ⟨held, there⟩ := Option.isSome_iff_exists.mp taken
      have same := honest .opfs listed file.content held there
      rw [same] at there
      exact .storing content .same ⟨content, rfl, .opfs, listed, reads, there⟩ rfl
    · cases advanced
      exact .storing content .same ⟨content, rfl, complete, listed, reads⟩ rfl

theorem advance_moving {temporary : Bytes}
    (advanced : advance platform options outcome storage (.moving file info temporary id) =
      some (later, next)) (works : Works platform options outcome (.moving file info temporary id))
    (knows : Knows platform options storage call (.moving file info temporary id)) :
    Advanced platform options call storage (.moving file info temporary id) later next := by
  obtain ⟨content, rfl, rfl, listed, reads⟩ := knows
  obtain ⟨harmless, honestly⟩ := works
  dsimp only [advance] at advanced
  split at advanced
  · cases advanced
    exact .storing content (harmless.change content listed) content rfl
  · rename_i resolves
    cases advanced
    refine .storing content (harmless.change content listed) ⟨content, rfl, ?_⟩ rfl
    rw [honestly (Bool.eq_false_iff.mpr resolves)]
    exact readable_put listed reads

theorem advance_streamLookup
    (advanced : advance platform options outcome storage (.streamLookup file info id) =
      some (later, next))
    (knows : Knows platform options storage call (.streamLookup file info id)) :
    Advanced platform options call storage (.streamLookup file info id) later next := by
  obtain ⟨content, rfl, readable⟩ := knows
  dsimp only [advance] at advanced
  split at advanced
  · cases advanced
    exact .storing content .same content rfl
  · split at advanced
    · rename_i existing found
      cases advanced
      exact .resolving content .same ((Table.get_eq_some _ _ _).mp found).2 found
    · cases advanced
      exact .storing content .same ⟨content, rfl, readable⟩ rfl

theorem advance_streamPutting
    (advanced : advance platform options outcome storage (.streamPutting file info record) =
      some (later, next))
    (knows : Knows platform options storage call (.streamPutting file info record)) :
    Advanced platform options call storage (.streamPutting file info record) later next := by
  obtain ⟨content, named, readable⟩ := knows
  dsimp only [advance] at advanced
  split at advanced
  · cases advanced
    exact .storing content .same content rfl
  · cases advanced
    have there := get_put storage record
    rw [named] at there
    exact .resolving content (.recorded content named readable) named there

theorem advance_reading
    (advanced : advance platform options outcome storage (.reading file info) = some (later, next))
    (content : call.content = some file.content) :
    Advanced platform options call storage (.reading file info) later next := by
  dsimp only [advance] at advanced
  split at advanced
  · cases advanced
    exact .storing content .same trivial rfl
  · cases advanced
    exact .storing content .same content rfl

theorem Advanced.deleting (deletes : call.deletes = some id)
    (change : Change platform options call storage next) (names : Knows platform options next call later)
    (quiet : stage.removes = false → next = storage)
    (ends : stage.removes = true → later.removes = false → next.records.get id = none) :
    Advanced platform options call storage stage later next := by
  have none := call.content_of_deletes deletes
  constructor
  · exact change
  · exact names
  · intro debt member
    unfold promise at member
    rw [none] at member
    split at member
    · cases member
    · cases member
  · exact fun _ _ => quiet
  · intro other names
    rw [deletes] at names
    cases names
    exact ends

theorem advance_deleteLookup
    (advanced : advance platform options outcome storage (.deleteLookup id) = some (later, next))
    (deletes : call.deletes = some id) :
    Advanced platform options call storage (.deleteLookup id) later next := by
  dsimp only [advance] at advanced
  split at advanced
  · cases advanced
    exact .deleting deletes .same trivial (fun _ => rfl) fun removes => by cases removes
  · split at advanced
    · cases advanced
      exact .deleting deletes .same deletes (fun _ => rfl) fun removes => by cases removes
    · cases advanced
      exact .deleting deletes .same deletes (fun _ => rfl) fun removes => by cases removes

theorem advance_removing {pending : List BackendName}
    (advanced : advance platform options outcome storage (.removing id pending) =
      some (later, next)) (deletes : call.deletes = some id) :
    Advanced platform options call storage (.removing id pending) later next := by
  cases pending with
  | nil =>
    cases advanced
    exact .deleting deletes .same deletes (fun quiet => nomatch quiet) fun _ ended => nomatch ended
  | cons first rest =>
    dsimp only [advance] at advanced
    split at advanced
    · cases advanced
      refine .deleting deletes ?_ deletes (fun quiet => nomatch quiet) fun _ ended => nomatch ended
      split
      · exact .same
      · exact .removed deletes
    · cases advanced
      exact .deleting deletes .same deletes (fun quiet => nomatch quiet)
        fun _ ended => nomatch ended

theorem advance_deletingRecord
    (advanced : advance platform options outcome storage (.deletingRecord id) = some (later, next))
    (works : Works platform options outcome (.deletingRecord id))
    (deletes : call.deletes = some id) :
    Advanced platform options call storage (.deletingRecord id) later next := by
  dsimp only [advance] at advanced
  split at advanced
  · rename_i rejects
    rw [works] at rejects
    cases rejects
  · cases advanced
    refine .deleting deletes (.unrecorded deletes) trivial (fun quiet => nomatch quiet) ?_
    intro _ _
    apply Table.get_deleteWhere_of_all
    intro row named
    exact decide_eq_true named

theorem advance_sound
    (advanced : advance platform options outcome storage stage = some (later, next))
    (works : Works platform options outcome stage)
    (knows : Knows platform options storage call stage)
    (honest : Honest platform options storage) :
    Advanced platform options call storage stage later next := by
  cases stage with
  | hashing => exact advance_hashing advanced works knows
  | lookup => exact advance_lookup advanced knows
  | writing => exact advance_writing advanced works knows
  | putting => exact advance_putting advanced knows
  | streaming => exact advance_streaming advanced works knows
  | finishing => exact advance_finishing advanced knows honest
  | moving => exact advance_moving advanced works knows
  | streamLookup => exact advance_streamLookup advanced knows
  | streamPutting => exact advance_streamPutting advanced knows
  | reading => exact advance_reading advanced knows
  | deleteLookup => exact advance_deleteLookup advanced knows
  | removing => exact advance_removing advanced knows
  | deletingRecord => exact advance_deletingRecord advanced works knows
  | resolved | deleted | failed => cases advanced

end Advances

section Worlds

variable {platform : Platform} {options : BlobStoreOptions} {world : World} {call : Call}

theorem begin_knows (storage : Storage) : Knows platform options storage call call.begin := by
  cases call with
  | storeBlob | deleteBlob => rfl
  | storeBlobFromFile =>
    dsimp only [Call.begin]
    split <;> rfl

theorem held_of_start {i : Nat} {entry : Call × Stage}
    (held : (step platform options (.start call) world).calls[i]? = some entry) :
    world.calls[i]? = some entry ∨ entry = (call, call.begin) := by
  rcases List.mem_append.mp (List.mem_of_getElem? held) with _ | last
  · by_cases inside : i < world.calls.length
    · left
      rw [← held]
      exact (List.getElem?_append_left inside).symm
    · right
      have behind : (world.calls ++ [(call, call.begin)])[i]? = some entry := held
      rw [List.getElem?_append_right (Nat.le_of_not_lt inside)] at behind
      exact List.mem_singleton.mp (List.mem_of_getElem? behind)
  · exact .inr (List.mem_singleton.mp last)

theorem held_start {i : Nat} {entry : Call × Stage} (held : world.calls[i]? = some entry) :
    (step platform options (.start call) world).calls[i]? = some entry := by
  rw [← held]
  exact List.getElem?_append_left (List.getElem?_eq_some_iff.mp held).1

theorem start_storing {data : Bytes}
    (storing : (step platform options (.start call) world).Storing data) :
    world.Storing data ∨ call.content = some data := by
  obtain ⟨i, other, stage, held, content, running⟩ := storing
  rcases held_of_start held with before | new
  · exact .inl ⟨i, other, stage, before, content, running⟩
  · cases new
    exact .inr content

theorem start_deleting {id : String}
    (deleting : (step platform options (.start call) world).Deleting id) :
    world.Deleting id ∨ call.deletes = some id := by
  obtain ⟨i, other, stage, held, deletes, running⟩ := deleting
  rcases held_of_start held with before | new
  · exact .inl ⟨i, other, stage, before, deletes, running⟩
  · cases new
    exact .inr deletes

theorem start_sound (sound : Sound platform options world)
    (fits : Fits platform options (.start call) world) :
    Sound platform options (step platform options (.start call) world) := by
  obtain ⟨notDeleted, notStored⟩ := fits
  constructor
  · exact sound.honest
  · intro data record known quiet
    apply sound.whole data record known
    intro ⟨i, other, stage, held, removing⟩
    exact quiet ⟨i, other, stage, held_start held, removing⟩
  · intro data storing deleting
    rcases start_storing storing with before | content
    · rcases start_deleting deleting with also | deletes
      · exact sound.apart data before also
      · exact notStored data deletes before
    · rcases start_deleting deleting with before | deletes
      · exact notDeleted data content before
      · rw [call.deletes_of_content content] at deletes
        cases deletes
  · intro i other stage held
    rcases held_of_start held with before | new
    · exact sound.knows i other stage before
    · cases new
      exact begin_knows world.storage
  · exact sound.resolved
  · intro debt member
    obtain ⟨listed, kept⟩ := List.mem_filter.mp member
    obtain ⟨named, known, quiet⟩ := sound.owed debt listed
    refine ⟨named, known, ?_⟩
    intro deleting
    rcases start_deleting deleting with before | deletes
    · exact quiet before
    · exact of_decide_eq_true kept deletes

section Advance

variable {index : Nat} {stage later : Stage} {next : Storage}

def World.went (world : World) (index : Nat) (call : Call) (later : Stage) (next : Storage) :
    World where
  storage := next
  calls := world.calls.set index (call, later)
  resolved := promise call later ++ world.resolved
  owed := promise call later ++ world.owed

theorem held_of_went {i : Nat} {entry : Call × Stage}
    (held : (world.went index call later next).calls[i]? = some entry) :
    (i ≠ index ∧ world.calls[i]? = some entry) ∨ (i = index ∧ entry = (call, later)) := by
  have held : (world.calls.set index (call, later))[i]? = some entry := held
  rw [List.getElem?_set] at held
  split at held
  · rename_i same
    split at held
    · exact .inr ⟨same.symm, (Option.some.inj held).symm⟩
    · cases held
  · rename_i other
    exact .inl ⟨fun same => other same.symm, held⟩

theorem held_went {i : Nat} (other : i ≠ index) {entry : Call × Stage}
    (held : world.calls[i]? = some entry) :
    (world.went index call later next).calls[i]? = some entry := by
  rw [← held]
  exact List.getElem?_set_ne other.symm

theorem held_went_self (listed : world.calls[index]? = some (call, stage)) :
    (world.went index call later next).calls[index]? = some (call, later) :=
  List.getElem?_set_self (List.getElem?_eq_some_iff.mp listed).1

theorem went_storing (listed : world.calls[index]? = some (call, stage))
    (running : stage.running = true) {data : Bytes}
    (storing : (world.went index call later next).Storing data) : world.Storing data := by
  obtain ⟨i, other, point, held, content, going⟩ := storing
  rcases held_of_went held with ⟨-, before⟩ | ⟨-, new⟩
  · exact ⟨i, other, point, before, content, going⟩
  · cases new
    exact ⟨index, call, stage, listed, content, running⟩

theorem went_deleting (listed : world.calls[index]? = some (call, stage))
    (running : stage.running = true) {id : String}
    (deleting : (world.went index call later next).Deleting id) : world.Deleting id := by
  obtain ⟨i, other, point, held, deletes, going⟩ := deleting
  rcases held_of_went held with ⟨-, before⟩ | ⟨-, new⟩
  · exact ⟨i, other, point, before, deletes, going⟩
  · cases new
    exact ⟨index, call, stage, listed, deletes, running⟩

theorem went_removing {id : String} (removing : world.Removing id)
    (listed : world.calls[index]? = some (call, stage))
    (other : call.deletes = some id → stage.removes = false) :
    (world.went index call later next).Removing id := by
  obtain ⟨i, deletion, point, held, deletes, removes⟩ := removing
  refine ⟨i, deletion, point, held_went ?_ held, deletes, removes⟩
  intro same
  rw [same, listed] at held
  cases held
  rw [other deletes] at removes
  cases removes

theorem went_sound (collisionFree : Function.Injective platform.hash)
    (sound : Sound platform options world) (listed : world.calls[index]? = some (call, stage))
    (running : stage.running = true)
    (advanced : Advanced platform options call world.storage stage later next) :
    Sound platform options (world.went index call later next) := by
  have storing {data : Bytes} (content : call.content = some data) : world.Storing data :=
    ⟨index, call, stage, listed, content, running⟩
  have deleting {id : String} (deletes : call.deletes = some id) : world.Deleting id :=
    ⟨index, call, stage, listed, deletes, running⟩
  constructor
  · exact advanced.change.honest collisionFree sound.honest
  · intro data record known quiet
    by_cases deletes : call.deletes = some (platform.hash data)
    · have laterQuiet : later.removes = false := by
        refine Bool.eq_false_iff.mpr fun removes => quiet ?_
        exact ⟨index, call, later, held_went_self listed, deletes, removes⟩
      cases removes : stage.removes with
      | true =>
        have gone := advanced.ends _ deletes removes laterQuiet
        have known : next.records.get (platform.hash data) = some record := known
        rw [gone] at known
        cases known
      | false =>
        have same : next = world.storage := advanced.quiet _ deletes removes
        have known : next.records.get (platform.hash data) = some record := known
        rw [same] at known
        have readable := sound.whole data record known fun removing =>
          quiet (went_removing removing listed fun _ => removes)
        rw [← same] at readable
        exact readable
    · rcases advanced.change.record_of_next collisionFree known with ⟨old, before⟩ | readable
      · apply advanced.change.readable collisionFree deletes
        exact sound.whole data old before fun removing =>
          quiet (went_removing removing listed fun also => absurd also deletes)
      · exact advanced.change.readable collisionFree deletes readable
  · intro data before also
    exact sound.apart data (went_storing listed running before) (went_deleting listed running also)
  · intro i other point held
    rcases held_of_went held with ⟨-, before⟩ | ⟨-, new⟩
    · refine advanced.change.knows collisionFree ?_ (sound.knows i other point before)
      intro data content going deletes
      exact sound.apart data ⟨i, other, point, before, content, going⟩ (deleting deletes)
    · cases new
      exact advanced.knows
  · intro debt member
    rcases List.mem_append.mp member with new | before
    · exact (advanced.keeps debt new).2.1
    · exact sound.resolved debt before
  · intro debt member
    rcases List.mem_append.mp member with new | before
    · obtain ⟨content, named, known⟩ := advanced.keeps debt new
      refine ⟨named, known, ?_⟩
      intro also
      rw [named] at also
      exact sound.apart _ (storing content) (went_deleting listed running also)
    · obtain ⟨named, ⟨record, known⟩, quiet⟩ := sound.owed debt before
      have kept : call.deletes ≠ some debt.1 := fun deletes => quiet (deleting deletes)
      exact ⟨named, advanced.change.record kept known,
        fun also => quiet (went_deleting listed running also)⟩

end Advance

theorem running_of_advance {outcome : Outcome} {storage : Storage} {stage : Stage}
    {result : Stage × Storage} (advanced : advance platform options outcome storage stage = some result) :
    stage.running = true := by
  cases stage with
  | resolved | deleted | failed => cases advanced
  | _ => rfl

theorem step_sound (collisionFree : Function.Injective platform.hash) {op : Op}
    (fits : Fits platform options op world) (sound : Sound platform options world) :
    Sound platform options (step platform options op world) := by
  cases op with
  | start call => exact start_sound sound fits
  | advance index outcome =>
    dsimp only [step]
    cases listed : world.calls[index]? with
    | none => exact sound
    | some entry =>
      obtain ⟨call, stage⟩ := entry
      dsimp only
      cases advanced : advance platform options outcome world.storage stage with
      | none => exact sound
      | some result =>
        obtain ⟨later, next⟩ := result
        have spec := advance_sound advanced (fits call stage listed)
          (sound.knows index call stage listed) sound.honest
        exact went_sound collisionFree sound listed (running_of_advance advanced) spec

theorem intact_sound {storage : Storage} (intact : Intact platform options storage) :
    Sound platform options { storage } := by
  constructor
  · exact intact.honest
  · exact fun data record known _ => intact.whole data record known
  · exact fun data ⟨_, _, _, held, _⟩ => nomatch held
  · exact fun _ _ _ held => nomatch held
  · exact fun _ member => nomatch member
  · exact fun _ member => nomatch member

end Worlds

section Reading

variable {platform : Platform} {options : BlobStoreOptions} {storage : Storage}

theorem readThroughChain_of_readable (honest : Honest platform options storage) {data : Bytes}
    (readable : Readable platform options storage data) (known : Option BackendName) :
    platform.readThroughChain storage options.chain (platform.hash data) known = some data := by
  obtain ⟨backend, listed, reads, held⟩ := readable
  have right {other : BackendName} {content : Bytes} (chained : other ∈ options.chain)
      (found : platform.read storage other (platform.hash data) = some content) :
      content = data := by
    unfold Platform.read at found
    split at found
    · exact honest other chained data content found
    · cases found
  unfold Platform.readThroughChain
  cases first : (known.filter (· ∈ options.chain)).bind
      (platform.read storage · (platform.hash data)) with
  | some content =>
    obtain ⟨other, asked, found⟩ := Option.bind_eq_some_iff.mp first
    have chained := (Option.filter_eq_some_iff.mp asked).2
    rw [right (of_decide_eq_true chained) found]
    rfl
  | none =>
    rw [Option.none_or]
    have there : platform.read storage backend (platform.hash data) = some data := by
      unfold Platform.read
      rw [if_pos reads]
      exact held
    cases all : options.chain.findSome? (platform.read storage · (platform.hash data)) with
    | none =>
      rw [List.findSome?_eq_none_iff.mp all backend listed] at there
      cases there
    | some content =>
      obtain ⟨other, chained, found⟩ := List.exists_of_findSome?_eq_some all
      rw [right chained found]

theorem getBlobData_of_owed {world : World} (named : ∀ data, platform.hash data ≠ "")
    (sound : Sound platform options world) {id : String} {data : Bytes}
    (owed : (id, data) ∈ world.owed) (blake3 : Option String) :
    getBlobData platform options world.storage id blake3 = some data := by
  obtain ⟨same, ⟨record, known⟩, quiet⟩ := sound.owed (id, data) owed
  have same : id = platform.hash data := same
  subst same
  have readable := sound.whole data record known fun removing => quiet removing.deleting
  have key := ((Table.get_eq_some _ _ _).mp known).2
  unfold getBlobData resolveBlob
  rw [if_neg (named data), known]
  change platform.readThroughChain _ _ record.blobId _ = _
  rw [key]
  exact readThroughChain_of_readable sound.honest readable _

end Reading

/-- In every order of the steps of any calls, what a store call was given is read under the record
that it resolved to until a later deletion names the record, and one record never stands for two
contents. -/
theorem stored_contents_are_returned (platform : Platform) (options : BlobStoreOptions)
    (collisionFree : Function.Injective platform.hash) (named : ∀ data, platform.hash data ≠ "")
    (storage : Storage) (intact : Intact platform options storage) (ops : List Op)
    (meets : Meets (step platform options) (Fits platform options) ops { storage }) :
    let world := runAll (step platform options) ops { storage }
    (∀ debt ∈ world.owed, ∀ blake3,
      getBlobData platform options world.storage debt.1 blake3 = some debt.2) ∧
    ∀ first ∈ world.resolved, ∀ second ∈ world.resolved, first.1 = second.1 →
      first.2 = second.2 := by
  have sound := meets.keeps (fun _ _ fits => step_sound collisionFree fits) (intact_sound intact)
  refine ⟨?_, ?_⟩
  · intro debt owed blake3
    exact getBlobData_of_owed named sound owed blake3
  · intro first member second other same
    apply collisionFree
    rw [← sound.resolved first member, ← sound.resolved second other]
    exact same

def plainBrowser : Platform where
  opfsSupported := true
  opfsReadable := true
  cacheSupported := true
  hash bytes := String.ofList ('b' :: bytes.map fun byte => Char.ofNat byte.toNat)

theorem plainBrowser_collisionFree : Function.Injective plainBrowser.hash := by
  intro first second same
  have texts := String.ofList_injective same
  exact List.map_injective_iff.mpr (fun _ _ => ofNat_byte_injective) (List.cons.inj texts).2

theorem plainBrowser_named (data : Bytes) : plainBrowser.hash data ≠ "" := by
  intro empty
  have texts := congrArg String.toList empty
  rw [plainBrowser, String.toList_ofList] at texts
  cases texts

def emptyStorage : Storage := ⟨∅, fun _ _ => none⟩

def note : NewBlobMeta := { filename := "a.txt", mime := "text/plain" }

theorem emptyStorage_intact : Intact plainBrowser {} emptyStorage := by
  constructor
  · exact fun _ _ _ _ held => nomatch held
  · exact fun _ _ known => nomatch known

theorem note_is_returned :
    let ops : List Op := [.start (.storeBlob [97] note), .advance 0 {}, .advance 0 {},
      .advance 0 {}, .advance 0 {}]
    let world := runAll (step plainBrowser {}) ops { storage := emptyStorage }
    ("ba", [97]) ∈ world.owed ∧
      ∀ blake3, getBlobData plainBrowser {} world.storage "ba" blake3 = some [97] := by
  intro ops world
  have owed : ("ba", [97]) ∈ world.owed := by decide
  have meets : Meets (step plainBrowser {}) (Fits plainBrowser {}) ops { storage := emptyStorage } := by
    refine ⟨⟨?_, ?_⟩, ?_, ?_, ?_, ?_, trivial⟩
    · exact fun data _ ⟨_, _, _, held, _⟩ => nomatch held
    · exact fun data deletes => nomatch deletes
    · intro call stage held
      cases held
      exact .inr rfl
    · intro call stage held
      cases held
      trivial
    · intro call stage held
      cases held
      exact fun _ => ⟨.inl rfl, fun _ => ⟨rfl, rfl⟩⟩
    · intro call stage held
      cases held
      trivial
  exact ⟨owed, (stored_contents_are_returned plainBrowser {} plainBrowser_collisionFree
    plainBrowser_named emptyStorage emptyStorage_intact ops meets).1 _ owed⟩

def strandedStorage : Storage where
  records := ⟨[newRecord "ba" 1 note .opfs 0], List.nodup_singleton _⟩
  bytes _ _ := none

def wholeStorage : Storage where
  records := ⟨[newRecord "ba" 1 note .opfs 0], List.nodup_singleton _⟩
  bytes
    | .opfs, "ba" => some [97]
    | _, _ => none

/-- A record that is there is taken for its bytes, a write that does nothing for one that is made,
contents without a hash for each other, and a deletion under way for none. -/
theorem stored_contents_are_lost :
    (let world := runAll (step plainBrowser {})
      [.start (.storeBlob [97] note), .advance 0 {}, .advance 0 {}] { storage := strandedStorage }
    ("ba", [97]) ∈ world.owed ∧ getBlobData plainBrowser {} world.storage "ba" none = none) ∧
    (let world := runAll (step plainBrowser {})
      [.start (.storeBlob [97] note), .advance 0 {}, .advance 0 {}, .advance 0 { fault := some none },
        .advance 0 {}] { storage := emptyStorage }
    ("ba", [97]) ∈ world.owed ∧ getBlobData plainBrowser {} world.storage "ba" none = none) ∧
    (let world := runAll (step plainBrowser {})
      [.start (.storeBlob [97] note), .advance 0 { hasher := false }, .advance 0 {}, .advance 0 {},
        .advance 0 {}, .start (.storeBlob [98] note), .advance 1 { hasher := false },
        .advance 1 {}] { storage := emptyStorage }
    ("", [97]) ∈ world.resolved ∧ ("", [98]) ∈ world.resolved) ∧
    (let world := runAll (step plainBrowser {})
      [.start (.deleteBlob "ba"), .advance 0 {}, .advance 0 {}, .start (.storeBlob [97] note),
        .advance 1 {}, .advance 1 {}] { storage := wholeStorage }
    ("ba", [97]) ∈ world.owed ∧ getBlobData plainBrowser {} world.storage "ba" none = none) := by
  decide

end Tomb.Reliquary.Browser
