import Tomb.Lib.Table

/-! The reorganization of the library: songs and videos are moved one by one into a directory of the
user's choice, by workers that nothing serializes. Each wait of a move is a stage; a worker that stops
leaves its move where it is. Directories, the result's counters and the mirror of the table in the
transport store are left out. -/
namespace Tomb.Grimoire.Maintenance.Reorganize
open Tomb.Lib

abbrev Bytes := List UInt8

abbrev Path := List Char

structure MediaBlob where
  id : String
  localPath : Option Path
  blake3 : Option String
  filename : Option Path
  size : Option Nat
  deriving DecidableEq

inductive Kind where
  | song
  | video
  deriving DecidableEq

structure Media where
  (id mediaBlobId title : String)

structure RelativePath where
  (parent stem ext : Path)

def RelativePath.render (base : RelativePath) : Path :=
  base.parent ++ '/' :: base.stem ++ '.' :: base.ext

def RelativePath.numbered (base : RelativePath) (n : Nat) : Path :=
  { base with stem := base.stem ++ " (".toList ++ (toString n).toList ++ [')'] }.render

def slashed (path : Path) : Path := path.map fun c => if c = '\\' then '/' else c

theorem slashed_plain (path : Path) : '\\' ∉ slashed path := by
  intro member
  obtain ⟨c, -, same⟩ := List.mem_map.mp member
  split at same
  · cases same
  · rename_i other
    exact other same

def uniquifyPath (base : RelativePath) (attempted : List Path) : Path :=
  if slashed base.render ∉ attempted then base.render
  else (((List.range (attempted.length + 1)).map fun n => base.numbered (n + 2)).find?
    (slashed · ∉ attempted)).getD base.render

structure ClaimedPath where
  relativePath : Path
  kind : Kind
  mediaId : String
  plain : '\\' ∉ relativePath

/-- What a run is given: where it moves the files, how the files are named there (from the names of
the artist, the album or the series and from the extension), and the hash function. -/
structure Run where
  targetRoot : Path
  naming : Kind → Media → MediaBlob → RelativePath
  hash : Bytes → String

structure Item where
  kind : Kind
  id : String
  (dryRun embedTags : Bool)

structure Store where
  disk : Path → Option Bytes
  blobs : Table MediaBlob.id
  media : Kind → Table Media.id
  claims : Table ClaimedPath.relativePath
  /-- What the moves have written under the target, the newest first, by the index of the item. -/
  wrote : List (Nat × Path × Bytes) := []

structure Move where
  blobId : String
  (source dest : Path)

inductive Stage where
  | loading
  | blobLoading (media : Media)
  | resuming (media : Media) (blob : MediaBlob) (source : Path)
  | claiming (media : Media) (blob : MediaBlob) (source : Path) (attempted : List Path)
  | checking (move : Move) (size : Option Nat)
  | reading (move : Move) (size : Option Nat)
  | persisting (move : Move) (size : Option Nat) (temporary : Bytes)
  | embedding (move : Move) (sourceHash : String)
  | measuring (move : Move) (sourceHash : String) (embedded : Bool)
  | rehashing (move : Move) (sourceHash : String) (size : Nat)
  | selecting (move : Move) (sourceHash : String) (size : Nat) (contentHash : Option String)
  | ensuring (move : Move) (sourceHash : String) (size : Nat) (contentHash selected : Option String)
  | updating (move : Move) (sourceHash : String) (size : Nat) (contentHash selected : Option String)
  | verifying (move : Move) (sourceHash destinationHash : String)
  | removing (move : Move)
  | moved
  | alreadyDone
  | failed

/-- What happens in one wait: the operation fails, before or after it has had its effect, and what
writing the tags leaves in the file, saved or not. -/
structure Outcome where
  fails : Bool := false
  failsAfter : Bool := false
  tags : Option Bytes := none
  saved : Bool := false

def Store.put (store : Store) (index : Nat) (path : Path) (content : Bytes) : Store :=
  { store with
    disk := fun other => if other = path then some content else store.disk other
    wrote := (index, path, content) :: store.wrote }

def Store.removeFile (store : Store) (path : Path) : Store :=
  { store with disk := fun other => if other = path then none else store.disk other }

def fileName (path : Path) : Path := (path.reverse.takeWhile (· ≠ '/')).reverse

/-- The update at the end of `relocate_blob_with_hash`: without a new hash the old one stays. -/
def relocated (dest : Path) (size : Nat) (contentHash : Option String) (row : MediaBlob) :
    MediaBlob :=
  { row with
    localPath := some dest
    blake3 := contentHash.or row.blake3
    filename := some (fileName dest)
    size := some size }

def Store.hashTaken (store : Store) (blobId : String) (contentHash : Option String) : Bool :=
  contentHash.isSome && store.blobs.rows.any fun row => row.id ≠ blobId && row.blake3 = contentHash

def Store.relocate (store : Store) (blobId : String) (dest : Path) (size : Nat)
    (contentHash : Option String) : Store :=
  { store with
    blobs := store.blobs.update (·.id = blobId) (relocated dest size contentHash) fun _ => rfl }

namespace Run

variable (run : Run)

def underTarget (path : Path) : Bool := run.targetRoot.isPrefixOf path

def destination (relative : Path) : Path :=
  if run.targetRoot = [] ∨ run.targetRoot.getLast? = some '/' then run.targetRoot ++ relative
  else run.targetRoot ++ '/' :: relative

theorem under_destination (relative : Path) : run.underTarget (run.destination relative) = true := by
  unfold Run.destination
  split
  · exact List.isPrefixOf_iff_prefix.mpr (List.prefix_append _ _)
  · exact List.isPrefixOf_iff_prefix.mpr (List.prefix_append _ _)

def findExistingClaim (store : Store) (kind : Kind) (id : String) : Option Path :=
  (store.claims.rows.find? fun claim => claim.kind = kind ∧ claim.mediaId = id).map
    (·.relativePath)

/-- The tags of a song are written if the job asks for it; a video goes to the database at once. -/
def copied (item : Item) (move : Move) (size : Option Nat) (sourceHash : String) : Stage :=
  match item.kind with
  | .song =>
    if item.embedTags then .embedding move sourceHash else .measuring move sourceHash false
  | .video => .selecting move sourceHash (size.getD 0) none

@[grind =] def advance (index : Nat) (item : Item) (outcome : Outcome) (store : Store) :
    Stage → Option (Stage × Store)
  | .loading =>
    match (store.media item.kind).get item.id with
    | none => some (.failed, store)
    | some media => some (.blobLoading media, store)
  | .blobLoading media =>
    if outcome.fails then some (.failed, store)
    else match store.blobs.get media.mediaBlobId with
      | none => some (.failed, store)
      | some blob =>
        match blob.localPath with
        | none => some (.failed, store)
        | some localPath =>
          if run.underTarget localPath then some (.alreadyDone, store)
          else some (.resuming media blob localPath, store)
  | .resuming media blob source =>
    -- An error of the query reads as no claim.
    match if outcome.fails then none else findExistingClaim store item.kind item.id with
    | some existing =>
      if item.dryRun then some (.moved, store)
      else some (.checking ⟨blob.id, source, run.destination existing⟩ blob.size, store)
    | none =>
      if item.dryRun then some (.moved, store) else some (.claiming media blob source [], store)
  | .claiming media blob source attempted =>
    let candidate := uniquifyPath (run.naming item.kind media blob) attempted
    if outcome.fails then some (.failed, store)
    else match store.claims.insert
        ⟨slashed candidate, item.kind, item.id, slashed_plain candidate⟩ with
      | some claims =>
        some (.checking ⟨blob.id, source, run.destination candidate⟩ blob.size,
          { store with claims })
      | none => some (.claiming media blob source (slashed candidate :: attempted), store)
  | .checking move size =>
    if outcome.fails || (store.disk move.dest).isSome then some (.failed, store)
    else some (.reading move size, store)
  | .reading move size =>
    match store.disk move.source with
    | none => some (.failed, store)
    | some content =>
      if outcome.fails then some (.failed, store) else some (.persisting move size content, store)
  | .persisting move size temporary =>
    if outcome.fails || (store.disk move.dest).isSome then some (.failed, store)
    else
      let store := store.put index move.dest temporary
      if outcome.failsAfter then some (.failed, store)
      else some (copied item move size (run.hash temporary), store)
  | .embedding move sourceHash =>
    let store := match outcome.tags with
      | none => store
      | some content => store.put index move.dest content
    if outcome.fails then some (.failed, store)
    else some (.measuring move sourceHash outcome.saved, store)
  | .measuring move sourceHash embedded =>
    match store.disk move.dest with
    | none => some (.failed, store)
    | some content =>
      if outcome.fails then some (.failed, store)
      else if embedded then some (.rehashing move sourceHash content.length, store)
      else some (.selecting move sourceHash content.length none, store)
  | .rehashing move sourceHash size =>
    match store.disk move.dest with
    | none => some (.failed, store)
    | some content =>
      if outcome.fails then some (.failed, store)
      else some (.selecting move sourceHash size (some (run.hash content)), store)
  | .selecting move sourceHash size contentHash =>
    match store.blobs.get move.blobId with
    | none => some (.failed, store)
    | some row =>
      if outcome.fails then some (.failed, store)
      else some (.ensuring move sourceHash size contentHash row.blake3, store)
  | .ensuring move sourceHash size contentHash selected =>
    match contentHash.or selected with
    | none => some (.updating move sourceHash size contentHash selected, store)
    | some expected =>
      -- The transport hashes the file before it takes the reference.
      if outcome.fails || (store.disk move.dest).map run.hash ≠ some expected then
        some (.failed, store)
      else some (.updating move sourceHash size contentHash selected, store)
  | .updating move sourceHash size contentHash _ =>
    if outcome.fails || store.hashTaken move.blobId contentHash then some (.failed, store)
    else
      let store := store.relocate move.blobId move.dest size contentHash
      if outcome.failsAfter then some (.failed, store)
      else some (.verifying move sourceHash (contentHash.getD sourceHash), store)
  | .verifying move sourceHash destinationHash =>
    if outcome.fails || (store.disk move.dest).map run.hash ≠ some destinationHash ||
        (store.disk move.source).map run.hash ≠ some sourceHash then
      some (.failed, store)
    else some (.removing move, store)
  | .removing move =>
    if outcome.fails || (store.disk move.source).isNone then some (.failed, store)
    else some (.moved, store.removeFile move.source)
  | .moved | .alreadyDone | .failed => none

end Run

structure World where
  store : Store
  items : List (Item × Stage) := []

inductive Op where
  | start (item : Item)
  | advance (index : Nat) (outcome : Outcome)
  /-- `cleanup_claimed_paths` -/
  | forgetClaims

def Run.step (run : Run) : Op → World → World
  | .start item, world => { world with items := world.items ++ [(item, .loading)] }
  | .advance index outcome, world =>
    match world.items[index]? with
    | none => world
    | some (item, stage) =>
      match run.advance index item outcome world.store stage with
      | none => world
      | some (stage, store) => ⟨store, world.items.set index (item, stage)⟩
  | .forgetClaims, world => { world with store := { world.store with claims := ∅ } }

end Tomb.Grimoire.Maintenance.Reorganize
