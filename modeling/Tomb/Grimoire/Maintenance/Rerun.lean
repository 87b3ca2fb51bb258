import Tomb.Lib.Text
import Tomb.Lib.Runs
import Tomb.Grimoire.Models
import Tomb.Grimoire.Maintenance.Reorganize

/-! A reorganization that is run again: which songs and videos are listed for it, and its batches,
whose items may be moved in any order and beside each other. A crash leaves the store and forgets
the moves. -/
namespace Tomb.Grimoire.Maintenance.Reorganize
open Tomb.Lib

def trimEndSlashes (dir : Path) : Path := dir.rdropWhile (· = '/')

def replaceChar (c : Char) (new : List Char) (text : Path) : Path :=
  text.flatMap fun d => if d = c then new else [d]

def likePattern (dir : Path) : Path :=
  let normalized := trimEndSlashes dir
  let escaped := replaceChar '_' ['\\', '_']
    (replaceChar '%' ['\\', '%'] (replaceChar '\\' ['\\', '\\'] normalized))
  escaped ++ ['/', '%']

def directoriesOverlap (a b : Path) : Bool :=
  let a := trimEndSlashes a
  let b := trimEndSlashes b
  if a = [] ∨ b = [] then false
  else a = b || (b ++ ['/']).isPrefixOf a || (a ++ ['/']).isPrefixOf b

def overlapError (domain : String) (target source : Path) : ErrorDetail where
  errorType := "target_overlaps_source"
  title := "target directory overlaps the fetch source directory"
  detail := "\"" ++ String.ofList target ++ "\" is the same as, or nested with, the " ++ domain ++
    " fetch source directory \"" ++ String.ofList source ++
    "\" - reorganize only moves files INTO the target from OUTSIDE it, so an overlapping target " ++
    "would never find anything to move. pick a separate target directory."

def validateTargetDirectory (targetDirectory sourceMusic sourceVideo : Path)
    (includeMusic includeVideo : Bool) : Except ErrorDetail Unit :=
  if includeMusic && directoriesOverlap targetDirectory sourceMusic then
    .error (overlapError "music" targetDirectory sourceMusic)
  else if includeVideo && directoriesOverlap targetDirectory sourceVideo then
    .error (overlapError "video" targetDirectory sourceVideo)
  else .ok ()

structure Plan extends Run where
  source : Kind → Path
  embedTags : Bool
  accepted : validateTargetDirectory targetRoot (source .song) (source .video) true true = .ok ()

namespace Plan

variable (plan : Plan)

def isCandidate (kind : Kind) (path : Path) : Bool :=
  Sqlite.like (some '\\') (likePattern (plan.source kind)) path &&
    !Sqlite.like (some '\\') (likePattern plan.targetRoot) path

def listCandidateIds (kind : Kind) (store : Store) : List String :=
  ((store.media kind).rows.filter fun media =>
    ((store.blobs.get media.mediaBlobId).bind (·.localPath)).any (plan.isCandidate kind)).map (·.id)

def listCandidateSongIds (store : Store) : List String := plan.listCandidateIds .song store

def listCandidateVideoIds (store : Store) : List String := plan.listCandidateIds .video store

end Plan

structure Rerun where
  world : World
  listed : Kind → Bool := fun _ => false

inductive Act where
  /-- The candidates are listed and go into batches. -/
  | enqueue (kind : Kind)
  | advance (index : Nat) (outcome : Outcome)

def Plan.step (plan : Plan) : Act → Rerun → Rerun
  | .enqueue kind, rerun =>
    let batch := (plan.listCandidateIds kind rerun.world.store).map fun id =>
      (⟨kind, id, false, plan.embedTags⟩, Stage.loading)
    { world := { rerun.world with items := rerun.world.items ++ batch }
      listed := fun other => other = kind || rerun.listed other }
  | .advance index outcome, rerun =>
    { rerun with world := plan.toRun.step (.advance index outcome) rerun.world }

def Stage.ended : Stage → Bool
  | .moved | .alreadyDone | .failed => true
  | _ => false

structure Outcome.Errorless (outcome : Outcome) : Prop where
  before : outcome.fails = false
  after : outcome.failsAfter = false
  saved : outcome.tags.isSome = true → outcome.saved = true

instance (outcome : Outcome) : Decidable outcome.Errorless :=
  decidable_of_iff (outcome.fails = false ∧ outcome.failsAfter = false ∧
      (outcome.tags.isSome = true → outcome.saved = true))
    ⟨fun ⟨before, after, saved⟩ => ⟨before, after, saved⟩,
      fun ⟨before, after, saved⟩ => ⟨before, after, saved⟩⟩

def Stage.aim : Stage → Option Path
  | .checking move _ => some move.dest
  | _ => none

def Stage.commit : Stage → Option (String × Option String)
  | .updating move _ _ contentHash _ => some (move.blobId, contentHash)
  | _ => none

/-- Each list is made once; a move that has not ended goes on without an error. No system makes a
file whose path has a NUL in it. -/
def Works : Act → Rerun → Prop
  | .enqueue kind, rerun => rerun.listed kind = false
  | .advance index outcome, rerun =>
    outcome.Errorless ∧ ∃ entry ∈ rerun.world.items[index]?,
      entry.2.ended = false ∧ ∀ dest ∈ entry.2.aim, '\x00' ∉ dest

/-- No file lies where a move is about to make one, and no other row has its new hash. -/
def Clear : Act → Rerun → Prop
  | .enqueue _, _ => True
  | .advance index _, rerun => ∀ entry ∈ rerun.world.items[index]?,
      (∀ dest ∈ entry.2.aim, rerun.world.store.disk dest = none) ∧
        ∀ row ∈ entry.2.commit, rerun.world.store.hashTaken row.1 row.2 = false

instance : (act : Act) → (rerun : Rerun) → Decidable (Works act rerun)
  | .enqueue kind, rerun => inferInstanceAs (Decidable (rerun.listed kind = false))
  | .advance index outcome, rerun =>
    inferInstanceAs (Decidable (outcome.Errorless ∧ ∃ entry ∈ rerun.world.items[index]?,
      entry.2.ended = false ∧ ∀ dest ∈ entry.2.aim, '\x00' ∉ dest))

instance : (act : Act) → (rerun : Rerun) → Decidable (Clear act rerun)
  | .enqueue _, _ => .isTrue trivial
  | .advance index _, rerun =>
    inferInstanceAs (Decidable (∀ entry ∈ rerun.world.items[index]?,
      (∀ dest ∈ entry.2.aim, rerun.world.store.disk dest = none) ∧
        ∀ row ∈ entry.2.commit, rerun.world.store.hashTaken row.1 row.2 = false))

structure Rerun.Finished (rerun : Rerun) : Prop where
  listed : ∀ kind, rerun.listed kind = true
  ended : ∀ entry ∈ rerun.world.items, entry.2.ended = true

end Tomb.Grimoire.Maintenance.Reorganize
