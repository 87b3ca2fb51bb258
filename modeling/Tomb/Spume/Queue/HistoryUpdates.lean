import Tomb.Spume.Queue.QueueHistory

/-! What the entries of the queue history say in every run. -/
namespace Tomb.Spume.Queue
open Lib

structure EntryPart (α : Type) where
  read : QueueHistoryEntry → α
  set : QueueHistoryEntry → Update → Option α
  read_apply : ∀ entry (update : Update),
    read (update.apply entry) = (set entry update).getD (read entry)
  /-- What an update sets does not depend on what updates change. -/
  set_apply : ∀ entry (update : Update) later, set (update.apply entry) later = set entry later

namespace EntryPart

def plain {α : Type} (read : QueueHistoryEntry → α) (set : Update → Option α)
    (read_apply : ∀ entry (update : Update),
      read (update.apply entry) = (set update).getD (read entry)) :
    EntryPart α :=
  ⟨read, fun _ => set, read_apply, fun _ _ _ => rfl⟩

def listenedSeconds : EntryPart ℚ :=
  plain (·.listenedSeconds) (fun
    | .progress updates => updates.listenedSeconds
    | _ => none) fun entry update => by cases update <;> rfl

def songsCompleted : EntryPart Nat :=
  plain (·.songsCompleted) (fun
    | .progress updates => updates.songsCompleted
    | _ => none) fun entry update => by cases update <;> rfl

def currentSongIndex : EntryPart Nat :=
  plain (·.currentSongIndex) (fun
    | .progress updates => updates.currentSongIndex
    | _ => none) fun entry update => by cases update <;> rfl

def currentSongPosition : EntryPart ℚ :=
  plain (·.currentSongPosition) (fun
    | .progress updates => updates.currentSongPosition
    | _ => none) fun entry update => by cases update <;> rfl

def songs : EntryPart (List Song × Nat × ℚ) :=
  plain (fun entry => (entry.songs, entry.songCount, entry.totalSeconds)) (fun
    | .songs queue => some (queue, queue.length, totalSeconds queue)
    | _ => none) fun entry update => by cases update <;> rfl

def label : EntryPart String where
  read := (·.label)
  set entry
    | .songs queue => if entry.keepsLabel then none else some (computeSmartLabel queue)
    | _ => none
  read_apply entry update := by
    cases update with
    | songs queue =>
      simp only [Update.apply]
      split <;> rfl
    | _ => rfl
  set_apply entry update later := by
    have same : (update.apply entry).keepsLabel = entry.keepsLabel := by cases update <;> rfl
    simp only [same]

def serverSession : EntryPart (Option String × Option String) :=
  plain (fun entry => (entry.serverSessionId, entry.serverRemoteId)) (fun
    | .serverSession sessionId remoteId => some (some sessionId, some remoteId)
    | .clearServerSession => some (none, none)
    | _ => none) fun entry update => by cases update <;> rfl

variable {α : Type} (field : EntryPart α)

def tells (entry : QueueHistoryEntry) : Written → Option α
  | .created made => if made.id = entry.id then some (field.read made) else none
  | .updated id update => if id = entry.id then field.set entry update else none
  | .gone _ => none

@[grind =] def Current (log : List Written) (entry : QueueHistoryEntry) : Prop :=
  lastTold (field.tells entry) log = some (field.read entry)

end EntryPart

/-- Each part of the entry is as the last call that wrote it left it. -/
structure LastWritten (log : List Written) (entry : QueueHistoryEntry) : Prop where
  listenedSeconds : EntryPart.listenedSeconds.Current log entry
  songsCompleted : EntryPart.songsCompleted.Current log entry
  currentSongIndex : EntryPart.currentSongIndex.Current log entry
  currentSongPosition : EntryPart.currentSongPosition.Current log entry
  songs : EntryPart.songs.Current log entry
  label : EntryPart.label.Current log entry
  serverSession : EntryPart.serverSession.Current log entry

theorem Update.apply_id (entry : QueueHistoryEntry) (update : Update) :
    (update.apply entry).id = entry.id := by
  cases update <;> rfl

namespace EntryPart

variable {α : Type} (field : EntryPart α) {log : List Written}

theorem tells_apply (entry : QueueHistoryEntry) (update : Update) :
    field.tells (update.apply entry) = field.tells entry := by
  funext written
  cases written with
  | created made =>
    unfold tells
    rw [update.apply_id]
  | updated id later => simp only [tells, update.apply_id, field.set_apply]
  | gone id => rfl

variable {entry : QueueHistoryEntry}

theorem Current.update (current : field.Current log entry)
    (update : Update) : field.Current (log ++ [Written.updated entry.id update]) (update.apply entry) := by
  unfold Current at current ⊢
  have told : field.tells entry (.updated entry.id update) = field.set entry update := if_pos rfl
  rw [field.tells_apply, lastTold_concat, told, current, field.read_apply]
  cases field.set entry update <;> rfl

theorem current_created (log : List Written) (entry : QueueHistoryEntry) :
    field.Current (log ++ [Written.created entry]) entry := by
  have told : field.tells entry (.created entry) = some (field.read entry) := if_pos rfl
  rw [Current, lastTold_concat, told]
  rfl

theorem Current.other (current : field.Current log entry)
    {written : Written} (silent : field.tells entry written = none) :
    field.Current (log ++ [written]) entry := by
  unfold Current at current ⊢
  rw [lastTold_concat, silent, current]
  rfl

theorem Current.gone (current : field.Current log entry)
    (ids : List Nat) : field.Current (log ++ ids.map .gone) entry := by
  unfold Current at current ⊢
  rw [lastTold_append, current]
  have silent : lastTold (field.tells entry) (ids.map .gone) = none := by
    unfold lastTold
    rw [List.filterMap_eq_nil_iff.mpr fun written member => ?_]
    · rfl
    · obtain ⟨id, _, rfl⟩ := List.mem_map.mp member
      rfl
  rw [silent]
  rfl

end EntryPart

namespace QueueHistory

/-- Every entry is as it was last written, ids are drawn in order, and what is gone stays gone. -/
structure Kept (s : QueueHistory) : Prop where
  current : ∀ {α : Type} (field : EntryPart α), ∀ entry ∈ s.entries, field.Current s.log entry
  drawn : ∀ entry ∈ s.entries, entry.id < s.nextId
  goneDrawn : ∀ id, .gone id ∈ s.log → id < s.nextId
  gone : ∀ id, .gone id ∈ s.log → s.entries.get id = none

theorem Kept.goOn {s : QueueHistory} (kept : Kept s) (call : Nat) (next : Call) :
    Kept (s.goOn call next) :=
  ⟨kept.current, kept.drawn, kept.goneDrawn, kept.gone⟩

theorem Kept.update {s : QueueHistory} (kept : Kept s) {current : QueueHistoryEntry}
    (there : current ∈ s.entries) (update : Update) :
    Kept (s.put (update.apply current) (.updated current.id update)) := by
  have known := (Table.get_eq_some s.entries current.id current).mpr ⟨there, rfl⟩
  constructor
  · intro α field entry member
    rcases (Table.mem_upsert _ _ _).mp member with rfl | ⟨old, differs⟩
    · exact (kept.current field current there).update field update
    · refine (kept.current field entry old).other field (if_neg fun same => ?_)
      rw [update.apply_id] at differs
      exact differs same.symm
  · intro entry member
    rcases (Table.mem_upsert _ _ _).mp member with rfl | ⟨old, _⟩
    · rw [update.apply_id]
      exact kept.drawn current there
    · exact kept.drawn entry old
  · intro id gone
    rcases List.mem_append.mp gone with before | last
    · exact kept.goneDrawn id before
    · cases List.mem_singleton.mp last
  · intro id gone
    rcases List.mem_append.mp gone with before | last
    · refine (Table.get_upsert ..).trans ((if_neg fun same => ?_).trans (kept.gone id before))
      rw [update.apply_id] at same
      have none := kept.gone id before
      rw [same, known] at none
      cases none
    · cases List.mem_singleton.mp last

theorem Kept.create {s : QueueHistory} (kept : Kept s) {entry : QueueHistoryEntry}
    (fresh : entry.id = s.nextId) :
    Kept ({ s with nextId := s.nextId + 1 }.put entry (.created entry)) := by
  constructor
  · intro α field other member
    rcases (Table.mem_upsert _ _ _).mp member with rfl | ⟨old, differs⟩
    · exact field.current_created s.log other
    · exact (kept.current field other old).other field (if_neg fun same => differs same.symm)
  · intro other member
    rcases (Table.mem_upsert _ _ _).mp member with rfl | ⟨old, _⟩
    · exact Nat.lt_succ_of_le (Nat.le_of_eq fresh)
    · exact Nat.lt_succ_of_lt (kept.drawn other old)
  · intro id gone
    rcases List.mem_append.mp gone with before | last
    · exact Nat.lt_succ_of_lt (kept.goneDrawn id before)
    · cases List.mem_singleton.mp last
  · intro id gone
    rcases List.mem_append.mp gone with before | last
    · refine (Table.get_upsert ..).trans ((if_neg fun same => ?_).trans (kept.gone id before))
      have drawn := kept.goneDrawn id before
      rw [same, fresh] at drawn
      exact Nat.lt_irrefl _ drawn
    · cases List.mem_singleton.mp last

theorem Kept.delete {s : QueueHistory} (kept : Kept s) (ids : List Nat) : Kept (s.delete ids) := by
  constructor
  · intro α field entry member
    exact (kept.current field entry ((Table.mem_deleteWhere ..).mp member).1).gone field _
  · intro entry member
    exact kept.drawn entry ((Table.mem_deleteWhere ..).mp member).1
  · intro id gone
    rcases List.mem_append.mp gone with before | last
    · exact kept.goneDrawn id before
    · obtain ⟨other, there, same⟩ := List.mem_map.mp last
      cases same
      obtain ⟨entry, member, rfl⟩ := List.mem_map.mp (List.mem_filter.mp there).1
      exact kept.drawn entry member
  · intro id gone
    refine (Table.get_eq_none _ _).mpr fun entry member same => ?_
    obtain ⟨old, stays⟩ := (Table.mem_deleteWhere ..).mp member
    rcases List.mem_append.mp gone with before | last
    · exact (Table.get_eq_none _ _).mp (kept.gone id before) entry old same
    · obtain ⟨other, there, named⟩ := List.mem_map.mp last
      cases named
      have listed := of_decide_eq_true (List.mem_filter.mp there).2
      exact of_decide_eq_false stays (same ▸ listed)

theorem Kept.answer {s : QueueHistory} (kept : Kept s) {call : Nat} {now : Int}
    (fits : Fits (.answer call now) s) : Kept (s.answer call now) := by
  unfold Fits at fits
  unfold QueueHistory.answer
  dsimp only at fits
  split
  · split
    · exact kept.goOn call _
    · exact kept.goOn call .done
  · rename_i entry update waiting
    rw [waiting] at fits
    obtain ⟨current, found, same⟩ := Option.map_eq_some_iff.mp fits
    obtain ⟨there, named⟩ := (Table.get_eq_some _ _ _).mp found
    rw [← same, ← named]
    exact (kept.update there update).goOn call .done
  · exact (kept.delete _).goOn call .done
  · exact (kept.delete _).goOn call .done
  · exact (kept.create rfl).goOn call .getAll
  · exact kept.goOn call _
  · exact (kept.delete _).goOn call .done
  · exact kept
  · exact kept

theorem step_kept (op : HistoryOp) (s : QueueHistory) (fits : Fits op s) (kept : Kept s) :
    Kept (step op s) := by
  cases op with
  | answer call now => exact kept.answer fits
  | _ => exact ⟨kept.current, kept.drawn, kept.goneDrawn, kept.gone⟩

def stored (entries : Table QueueHistoryEntry.id) (nextId : Nat) : QueueHistory :=
  { entries, nextId, log := entries.rows.map .created }

theorem stored_kept {entries : Table QueueHistoryEntry.id} {nextId : Nat}
    (drawn : ∀ entry ∈ entries, entry.id < nextId) : Kept (stored entries nextId) := by
  have created (id : Nat) : Written.gone id ∉ (stored entries nextId).log := by
    intro gone
    obtain ⟨entry, _, same⟩ := List.mem_map.mp gone
    cases same
  refine ⟨fun field entry there => ?_, drawn, fun id gone => absurd gone (created id),
    fun id gone => absurd gone (created id)⟩
  have listed : entry ∈ entries.rows := there
  obtain ⟨before, later, split⟩ := List.append_of_mem listed
  have unique := entries.unique
  rw [split, List.map_append, List.map_cons] at unique
  have last := (List.nodup_cons.mp (List.nodup_append.mp unique).2.1).1
  have silent : lastTold (field.tells entry) (later.map Written.created) = none := by
    unfold lastTold
    rw [List.filterMap_eq_nil_iff.mpr fun written member => ?_]
    · rfl
    · obtain ⟨other, after, rfl⟩ := List.mem_map.mp member
      exact if_neg fun same => last (List.mem_map.mpr ⟨other, after, same⟩)
  have log : (stored entries nextId).log =
      before.map Written.created ++ [Written.created entry] ++ later.map Written.created := by
    show entries.rows.map Written.created = _
    rw [split, List.map_append, List.map_cons, List.append_assoc]
    rfl
  unfold EntryPart.Current
  rw [log, lastTold_append, silent]
  exact field.current_created (before.map Written.created) entry

/-- When no update puts back what another call has changed or deleted since it was read, every entry
that is there is as the last call of each kind left it, and none that was deleted is there. -/
theorem history_kept (entries : Table QueueHistoryEntry.id) (nextId : Nat)
    (drawn : ∀ entry ∈ entries, entry.id < nextId) (ops : List HistoryOp)
    (meets : Meets step Fits ops (stored entries nextId)) :
    let s := runAll step ops (stored entries nextId)
    (∀ entry ∈ s.entries, LastWritten s.log entry) ∧
      ∀ id, .gone id ∈ s.log → s.entries.get id = none := by
  intro s
  have kept : Kept s := meets.keeps step_kept (stored_kept drawn)
  refine ⟨fun entry there => ?_, kept.gone⟩
  exact ⟨kept.current _ entry there, kept.current _ entry there, kept.current _ entry there,
    kept.current _ entry there, kept.current _ entry there, kept.current _ entry there,
    kept.current _ entry there⟩

def oneSong : Song := ⟨"angst", "a1", "kmfdm", "b1", "angst", 240⟩

def listened : List HistoryOp :=
  [.addHistoryEntry [oneSong] ⟨"angst", none⟩ none, .answer 0 5, .answer 0 5, .answer 0 5,
    .updateHistoryProgress 0 { listenedSeconds := some 30 }, .answer 1 6, .answer 1 6]

def inTurn : List HistoryOp :=
  listened ++ [HistoryOp.updateHistoryEntrySongs 0 [], HistoryOp.answer 2 7, HistoryOp.answer 2 7]

def crossing : List HistoryOp :=
  listened ++ [HistoryOp.updateHistoryEntrySongs 0 [],
    HistoryOp.updateHistoryProgress 0 { listenedSeconds := some 60 },
    HistoryOp.answer 2 7, HistoryOp.answer 3 7, HistoryOp.answer 3 7, HistoryOp.answer 2 7]

def removedMeanwhile : List HistoryOp :=
  listened ++ [HistoryOp.updateHistoryProgress 0 { listenedSeconds := some 60 }, HistoryOp.answer 2 7,
    HistoryOp.removeHistoryEntry 0, HistoryOp.answer 3 7, HistoryOp.answer 2 7]

theorem history_kept_in_turn :
    let s := runAll step inTurn (stored ∅ 0)
    (∀ entry ∈ s.entries, LastWritten s.log entry) ∧
      ∀ id, .gone id ∈ s.log → s.entries.get id = none :=
  history_kept ∅ 0 (fun entry none => absurd none (Table.not_mem_empty entry)) inTurn
    (by decide +kernel)

/-- A progress that was written is lost, and an entry that was removed is there again. -/
theorem history_update_lost :
    (∃ entry ∈ (runAll step crossing (stored ∅ 0)).entries.rows,
      entry.listenedSeconds = 30 ∧ lastTold (EntryPart.listenedSeconds.tells entry)
        (runAll step crossing (stored ∅ 0)).log = some 60) ∧
    .gone 0 ∈ (runAll step removedMeanwhile (stored ∅ 0)).log ∧
      ((runAll step removedMeanwhile (stored ∅ 0)).entries.get 0).isSome = true := by
  decide

end QueueHistory

end Tomb.Spume.Queue
