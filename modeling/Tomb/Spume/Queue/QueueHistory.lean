import Mathlib.Algebra.Ring.Rat
import Mathlib.Data.List.Sort
import Tomb.Lib.Entries
import Tomb.Lib.Runs
import Tomb.Lib.Table

/-! The queue history of the client: entries of one IndexedDB store, each read, changed and put back
by calls that overlap. A call goes on whenever its request is answered; each request is atomic. What
no call reads of an entry (its type, remote and image) is left out. -/
namespace Tomb.Spume.Queue
open Lib

structure Song where
  (title artistId artistName albumId albumTitle : String)
  durationSeconds : ℚ
  deriving DecidableEq

def maxLabelLength : Nat := 100

def utf16Length (text : List Char) : Nat :=
  (text.map fun c => if c.toNat < 0x10000 then 1 else 2).sum

def takeUnits : Nat → List Char → List Char
  | _, [] => []
  | units, c :: rest =>
    let size := if c.toNat < 0x10000 then 1 else 2
    if size ≤ units then c :: takeUnits (units - size) rest else []

def truncate (text : String) (max : Nat) : String :=
  if utf16Length text.toList ≤ max then text
  else String.ofList (takeUnits (max - 1) text.toList) ++ "…"

def artistNames (songs : List Song) : List String :=
  ((songs.filter (·.artistId ≠ "")).foldl (fun (seen : List (String × String)) song =>
    if song.artistId ∈ seen.map Prod.fst then seen else seen ++ [(song.artistId, song.artistName)])
    []).map Prod.snd

def distinctIds (ids : List String) : List String := (ids.filter (· ≠ "")).dedup

def computeSmartLabel (songs : List Song) : String :=
  match songs with
  | [] => ""
  | [song] => truncate (song.title ++ " – " ++ song.artistName) maxLabelLength
  | first :: _ =>
    if (distinctIds (songs.map (·.albumId))).length = 1 ∧ first.albumTitle ≠ "" then
      truncate first.albumTitle maxLabelLength
    else if (distinctIds (songs.map (·.artistId))).length = 1 ∧ first.artistName ≠ "" then
      truncate first.artistName maxLabelLength
    else match artistNames songs with
      | [one, two] => truncate (one ++ " & " ++ two) maxLabelLength
      | one :: two :: rest =>
        truncate (one ++ ", " ++ two ++ " & " ++ toString rest.length ++
          (if rest.length = 1 then " other" else " others")) maxLabelLength
      | _ => toString songs.length ++ " songs"

structure QueueHistoryEntry where
  id : Nat
  label : String
  entityId : Option String
  songCount : Nat
  songs : List Song
  queuedAt : Int
  (listenedSeconds totalSeconds : ℚ)
  (songsCompleted currentSongIndex : Nat)
  currentSongPosition : ℚ
  (serverSessionId serverRemoteId : Option String)
  deriving DecidableEq

structure ProgressUpdates where
  listenedSeconds : Option ℚ := none
  songsCompleted : Option Nat := none
  currentSongIndex : Option Nat := none
  currentSongPosition : Option ℚ := none
  deriving DecidableEq

structure QueueSourceContext where
  label : String
  entityId : Option String

structure ResumeProgress where
  listenedSeconds : ℚ
  (songsCompleted currentSongIndex : Nat)
  currentSongPosition : ℚ

def totalSeconds (songs : List Song) : ℚ := (songs.map (·.durationSeconds)).sum

def newEntry (id : Nat) (songs : List Song) (source : QueueSourceContext)
    (resume : Option ResumeProgress) (now : Int) : QueueHistoryEntry where
  id := id
  label := source.label
  entityId := source.entityId
  songCount := songs.length
  songs := songs
  queuedAt := now
  listenedSeconds := (resume.map (·.listenedSeconds)).getD 0
  totalSeconds := totalSeconds songs
  songsCompleted := (resume.map (·.songsCompleted)).getD 0
  currentSongIndex := (resume.map (·.currentSongIndex)).getD 0
  currentSongPosition := (resume.map (·.currentSongPosition)).getD 0
  serverSessionId := none
  serverRemoteId := none

inductive Update where
  | progress (updates : ProgressUpdates)
  | songs (songs : List Song)
  | serverSession (sessionId remoteId : String)
  | clearServerSession
  deriving DecidableEq

def QueueHistoryEntry.keepsLabel (entry : QueueHistoryEntry) : Bool := entry.entityId.any (· ≠ "")

def Update.apply (entry : QueueHistoryEntry) : Update → QueueHistoryEntry
  | .progress updates => { entry with
      listenedSeconds := updates.listenedSeconds.getD entry.listenedSeconds
      songsCompleted := updates.songsCompleted.getD entry.songsCompleted
      currentSongIndex := updates.currentSongIndex.getD entry.currentSongIndex
      currentSongPosition := updates.currentSongPosition.getD entry.currentSongPosition }
  | .songs queue => { entry with
      songs := queue
      songCount := queue.length
      label := if entry.keepsLabel then entry.label else computeSmartLabel queue
      totalSeconds := totalSeconds queue }
  | .serverSession sessionId remoteId =>
    { entry with serverSessionId := some sessionId, serverRemoteId := some remoteId }
  | .clearServerSession => { entry with serverSessionId := none, serverRemoteId := none }

inductive Call where
  | get (id : Nat) (update : Update)
  | put (entry : QueueHistoryEntry) (update : Update)
  | delete (id : Nat)
  | clear
  | create (songs : List Song) (source : QueueSourceContext) (resume : Option ResumeProgress)
  | getAll
  | deleteOld (ids : List Nat)
  | done

inductive Written where
  | created (entry : QueueHistoryEntry)
  | updated (id : Nat) (update : Update)
  | gone (id : Nat)
  deriving DecidableEq

structure QueueHistory where
  entries : Table QueueHistoryEntry.id := ∅
  /-- Ids are drawn in order. -/
  nextId : Nat := 0
  calls : List Call := []
  log : List Written := []

def maxHistoryEntries : Nat := 1000

def toDelete (all : List QueueHistoryEntry) : List Nat :=
  ((all.insertionSort fun a b => a.queuedAt ≤ b.queuedAt).take
    (all.length - maxHistoryEntries)).map (·.id)

namespace QueueHistory

variable (s : QueueHistory)

def put (entry : QueueHistoryEntry) (written : Written) : QueueHistory :=
  { s with entries := s.entries.upsert entry, log := s.log ++ [written] }

def delete (ids : List Nat) : QueueHistory :=
  { s with
    entries := s.entries.deleteWhere fun entry => entry.id ∈ ids
    log := s.log ++ ((s.entries.rows.map (·.id)).filter (· ∈ ids)).map .gone }

def goOn (call : Nat) (next : Call) : QueueHistory := { s with calls := s.calls.set call next }

def answer (call : Nat) (now : Int) : QueueHistory :=
  match s.calls[call]? with
  | some (.get id update) =>
    match s.entries.get id with
    | some entry => s.goOn call (.put entry update)
    | none => s.goOn call .done
  | some (.put entry update) =>
    (s.put (update.apply entry) (.updated entry.id update)).goOn call .done
  | some (.delete id) => (s.delete [id]).goOn call .done
  | some .clear => (s.delete (s.entries.rows.map (·.id))).goOn call .done
  | some (.create songs source resume) =>
    let entry := newEntry s.nextId songs source resume now
    ({ s with nextId := s.nextId + 1 }.put entry (.created entry)).goOn call .getAll
  | some .getAll => s.goOn call (.deleteOld (toDelete s.entries.rows))
  | some (.deleteOld ids) => (s.delete ids).goOn call .done
  | some .done | none => s

end QueueHistory

inductive HistoryOp where
  | updateHistoryProgress (id : Nat) (updates : ProgressUpdates)
  | updateHistoryEntrySongs (id : Nat) (songs : List Song)
  | updateHistoryServerSession (id : Nat) (sessionId remoteId : String)
  | clearHistoryServerSession (id : Nat)
  | removeHistoryEntry (id : Nat)
  | clearQueueHistory
  | addHistoryEntry (songs : List Song) (source : QueueSourceContext)
      (resume : Option ResumeProgress)
  /-- The request of a call is answered. -/
  | answer (call : Nat) (now : Int)

def HistoryOp.begins : HistoryOp → Option Call
  | .updateHistoryProgress id updates => some (.get id (.progress updates))
  | .updateHistoryEntrySongs id songs => some (.get id (.songs songs))
  | .updateHistoryServerSession id sessionId remoteId =>
    some (.get id (.serverSession sessionId remoteId))
  | .clearHistoryServerSession id => some (.get id .clearServerSession)
  | .removeHistoryEntry id => some (.delete id)
  | .clearQueueHistory => some .clear
  | .addHistoryEntry songs source resume =>
    if songs = [] then none else some (.create songs source resume)
  | .answer _ _ => none

namespace QueueHistory

def step (op : HistoryOp) (s : QueueHistory) : QueueHistory :=
  match op with
  | .answer call now => s.answer call now
  | op => { s with calls := s.calls ++ op.begins.toList }

/-- What the request puts back is what it would put if the entry had been read just before. -/
def PutsBack (s : QueueHistory) : Option Call → Prop
  | some (.put entry update) =>
    (s.entries.get entry.id).map (fun current => update.apply current) = some (update.apply entry)
  | _ => True

instance (s : QueueHistory) : (call : Option Call) → Decidable (s.PutsBack call)
  | some (.put _ _) => inferInstanceAs (Decidable (_ = _))
  | some (.get _ _) | some (.delete _) | some .clear | some (.create _ _ _) | some .getAll
  | some (.deleteOld _) | some .done | none => .isTrue trivial

/-- No update puts back what another call has changed or deleted since it was read. -/
def Fits : HistoryOp → QueueHistory → Prop
  | .answer call _, s => s.PutsBack s.calls[call]?
  | _, _ => True

instance : (op : HistoryOp) → (s : QueueHistory) → Decidable (Fits op s)
  | .answer call _, s => inferInstanceAs (Decidable (s.PutsBack s.calls[call]?))
  | .updateHistoryProgress _ _, _ | .updateHistoryEntrySongs _ _, _
  | .updateHistoryServerSession _ _ _, _ | .clearHistoryServerSession _, _
  | .removeHistoryEntry _, _ | .clearQueueHistory, _ | .addHistoryEntry _ _ _, _ => .isTrue trivial

end QueueHistory

end Tomb.Spume.Queue
