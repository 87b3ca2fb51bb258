import Mathlib.Data.Finset.Erase
import Mathlib.Data.Finset.Insert
import Tomb.Lib.Json
import Tomb.Grimoire.Jobs.Service

/-! The pool of workers that drains the job queue: what a candidate has to reserve before it is
claimed, the search for a candidate that may run, and a pass of the run loop with the worker that
it spawns. -/
namespace Tomb.Grimoire.Jobs
open Tomb.Lib

inductive JobClass where
  | enrichmentMb
  | enrichmentLastFm
  | enrichmentAudiodb
  | heavy
  | other
  deriving DecidableEq

def jobClass : JobType → JobClass
  | .mbAlbumSearch | .mbAlbumDetail => .enrichmentMb
  | .lastFmAlbumDetail | .lastFmArtistDetail => .enrichmentLastFm
  | .audioDbAlbumDetail | .audioDbArtistDetail => .enrichmentAudiodb
  | .importMusic | .importVideo | .transcodeVideo | .processFile | .processDirectory | .fetchMedia
  | .preCheckFetch => .heavy
  | .regenerateVideoPosters => .heavy
  | _ => .other

def heavyJobReservedSlots : Nat := 1

def classCap (class_ : JobClass) (poolSize : Nat) : Option Nat :=
  match class_ with
  | .enrichmentMb => some 2
  | .enrichmentLastFm => some 3
  | .enrichmentAudiodb => some 2
  | .heavy => some (max (poolSize - heavyJobReservedSlots) 1)
  | .other => none

abbrev ConflictKey := JobType × String

def parentPath (path : String) : Option String :=
  let (lead, body) : List Char × List Char := match path.toList with
    | '/' :: body => (['/'], body)
    | ['.'] => (['.'], [])
    | '.' :: '/' :: body => (['.'], '/' :: body)
    | body => ([], body)
  let trimmed (parts : List (List Char)) : List (List Char) :=
    parts.dropWhile fun part => part = [] || part = ['.']
  match trimmed (body.splitOn '/').reverse with
  | _ :: before => some (String.ofList (lead ++ ['/'].intercalate (trimmed before).reverse))
  | [] => if lead = ['.'] then some "" else none

section ConflictKey

variable {N : Type}

def textField (params : Json N) (name : String) : Option String :=
  match params with
  | .object fields => match lookup fields name with
    | some (.string text) => some text
    | _ => none
  | _ => none

/-- Two jobs with one key would clobber each other. `fromStr` parses a text as json. -/
def conflictKeyFor (fromStr : String → Option (Json N)) (job : Job) : Option ConflictKey := do
  let jobType ← JobType.parse job.jobType
  match jobType with
  | .scanDirectory =>
    let params ← fromStr job.parameters
    let path ← textField params "directory_path"
    some (.scanDirectory, path)
  | .rescanDirectories => some (.rescanDirectories, "")
  | .repairLibraryImages => some (.repairLibraryImages, "")
  | .auditBlobReferences => some (.auditBlobReferences, "")
  | .processFile =>
    let params ← fromStr job.parameters
    let key ← textField params "serialization_group" <|>
      (textField params "file_path").bind parentPath <|> textField params "file_path"
    some (.processFile, key)
  | .processDirectory =>
    let params ← fromStr job.parameters
    let path ← textField params "directory_path"
    some (.processDirectory, path)
  | .albumEnrichmentPipeline | .autoApplyAlbumEnrichment =>
    let params ← fromStr job.parameters
    let albumId ← textField params "album_id"
    some (jobType, albumId)
  | _ => none

end ConflictKey

/-- What the passes of a run loop share: the tables, the semaphore's free slots, the keys that are
busy and the jobs in flight of each class. -/
structure Runner where
  tables : Tables
  permits : Nat
  busyKeys : Finset ConflictKey
  classCounts : JobClass → Nat

inductive Outcome where
  | returned (success : Bool)
  | panicked

/-- The steps of a pass, each of them atomic: on the database, under a lock, or of the semaphore. -/
inductive PoolCmd : Type → Type where
  | acquire : PoolCmd Unit
  | peekPendingJobs (limit : Nat) (now : Int) (fault : Option String) :
    PoolCmd (Except String (List Job))
  | reserveClass (class_ : JobClass) (cap : Nat) : PoolCmd Bool
  | dropClassPermit (class_ : JobClass) : PoolCmd Unit
  | reserveKey (key : ConflictKey) : PoolCmd Bool
  | removeKey (key : ConflictKey) : PoolCmd Unit
  | tryClaimPendingJob (id : String) (now : Int) (fault : Option String) :
    PoolCmd (Except String (Option Job))
  | processJob (job : Job) (outcome : Outcome) : PoolCmd Outcome
  | dropPermit : PoolCmd Unit

namespace Runner

variable (runner : Runner)

def countClass (class_ : JobClass) (f : Nat → Nat) : Runner :=
  { runner with classCounts :=
      Function.update runner.classCounts class_ (f (runner.classCounts class_)) }

def reserveClass (class_ : JobClass) (cap : Nat) : Bool × Runner :=
  if cap ≤ runner.classCounts class_ then (false, runner)
  else (true, runner.countClass class_ (· + 1))

def reserveKey (key : ConflictKey) : Bool × Runner :=
  if key ∈ runner.busyKeys then (false, runner)
  else (true, { runner with busyKeys := insert key runner.busyKeys })

def tryClaimPendingJob (id : String) (now : Int) : Option String →
    Except String (Option Job) × Runner
  | some message => (.error message, runner)
  | none => (.ok (runner.tables.claim id now).1,
      { runner with tables := (runner.tables.claim id now).2 })

end Runner

def PoolCmd.exec : {β : Type} → PoolCmd β → Runner → β × Runner
  | _, .acquire, s => ((), { s with permits := s.permits - 1 })
  | _, .peekPendingJobs limit now none, s => (.ok ((s.tables.due now).take limit), s)
  | _, .peekPendingJobs _ _ (some message), s => (.error message, s)
  | _, .reserveClass class_ cap, s => s.reserveClass class_ cap
  | _, .dropClassPermit class_, s => ((), s.countClass class_ (· - 1))
  | _, .reserveKey key, s => s.reserveKey key
  | _, .removeKey key, s => ((), { s with busyKeys := s.busyKeys.erase key })
  | _, .tryClaimPendingJob id now fault, s => s.tryClaimPendingJob id now fault
  -- What the job does to the tables are other statements than the pool's.
  | _, .processJob _ outcome, s => (outcome, s)
  | _, .dropPermit, s => ((), { s with permits := s.permits + 1 })

instance : Machine PoolCmd Runner where
  exec := PoolCmd.exec

abbrev PoolCall (α : Type) := Prog PoolCmd String α

def dropClassPermit : Option JobClass → PoolCall Unit
  | none => pure ()
  | some class_ => Prog.issue (.dropClassPermit class_)

def reserveKey : Option ConflictKey → PoolCall Bool
  | none => pure true
  | some key => Prog.issue (.reserveKey key)

def removeKey : Option ConflictKey → PoolCall Unit
  | none => pure ()
  | some key => Prog.issue (.removeKey key)

/-- What happens to a pass that the loop does not choose: the time, the statements that fail, and
how the processing of a job ends. -/
structure Fortune where
  now : Int
  peekFault : Option String
  claimFault : String → Option String
  outcome : Job → Outcome

section Claim

variable {N : Type} (fromStr : String → Option (Json N)) (poolSize : Nat) (fortune : Fortune)

/-- The part of the loop behind a candidate's class permit; `rest` is the search among the
candidates behind it. -/
def claimCandidate (candidate : Job) (classPermit : Option JobClass)
    (rest : PoolCall (Option (Job × Option JobClass))) :
    PoolCall (Option (Job × Option JobClass)) := do
  let key := conflictKeyFor fromStr candidate
  if ← reserveKey key then
    match ← Prog.issue (.tryClaimPendingJob candidate.id fortune.now
        (fortune.claimFault candidate.id)) with
    | .error message => do
      removeKey key
      dropClassPermit classPermit
      .fail message
    | .ok (some job) => return some (job, classPermit)
    | .ok none => do
      removeKey key
      dropClassPermit classPermit
      rest
  else do
    dropClassPermit classPermit
    rest

@[grind =] def claimFirst : List Job → PoolCall (Option (Job × Option JobClass))
  | [] => return none
  | candidate :: rest =>
    match JobType.parse candidate.jobType with
    | none => claimFirst rest
    | some candidateType =>
      match classCap (jobClass candidateType) poolSize with
      | some cap => do
        if ← Prog.issue (.reserveClass (jobClass candidateType) cap) then
          claimCandidate fromStr fortune candidate (some (jobClass candidateType))
            (claimFirst rest)
        else claimFirst rest
      | none => claimCandidate fromStr fortune candidate none (claimFirst rest)

def peekLimit : Nat := max ((poolSize + 4) % 2 ^ 32) 8

def claimNextUnblockedJob : PoolCall (Option (Job × Option JobClass)) := do
  let candidates ← Prog.attempt (.peekPendingJobs (peekLimit poolSize) fortune.now
    fortune.peekFault)
  claimFirst fromStr poolSize fortune candidates

def processJobSafely (job : Job) : PoolCall Bool := do
  match ← Prog.issue (.processJob job (fortune.outcome job)) with
  | .returned success => return success
  | .panicked => return false

def worker (job : Job) (classPermit : Option JobClass) : PoolCall Unit := do
  let key := conflictKeyFor fromStr job
  let _ ← processJobSafely fortune job
  dropClassPermit classPermit
  removeKey key
  Prog.issue .dropPermit

def pass : PoolCall Unit := do
  Prog.issue .acquire
  match ← (claimNextUnblockedJob fromStr poolSize fortune).result with
  | .error _ => Prog.issue .dropPermit
  | .ok none => Prog.issue .dropPermit
  | .ok (some (job, classPermit)) => worker fromStr fortune job classPermit

end Claim

end Tomb.Grimoire.Jobs
