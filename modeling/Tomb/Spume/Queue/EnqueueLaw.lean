import Tomb.Spume.Queue.Enqueue

/-! What a call makes of the queue: never too long, in order, and with the current item where there is
room or enough items stand before it. -/
namespace Tomb.Spume.Enqueue

inductive Call where
  | playQueue (songs : List (Song ⊕ MediaItem)) (requestedStartIndex : Int)
      (source : Option QueueSourceType)
  | addToQueue (songs : List (Song ⊕ MediaItem)) (startPlaying : Bool) (position : Position)
      (source : Option QueueSourceType)

namespace Call

def run (env : Surroundings) (state : AppState) : Call → Outcome
  | playQueue songs requestedStartIndex source =>
    Enqueue.playQueue env state songs requestedStartIndex source
  | addToQueue songs startPlaying position source =>
    Enqueue.addToQueue env state songs startPlaying position source

def incoming : Call → List MediaItem
  | playQueue songs _ source => markPlaylist source (toMediaItems songs)
  | addToQueue songs _ _ source => markPlaylist source (toMediaItems songs)

/-- The source of the call replaces the queue, and nobody objects. -/
def Replaces (env : Surroundings) : Call → Prop
  | playQueue _ _ source => source.any (replaceSourceTypes.contains ·) = true ∧
    (env.remoteQueued = true → env.replaceQueue = .replace)
  | addToQueue .. => False

end Call

section Pieces

variable {items currentQueue : List MediaItem} {limit : Nat} {source : Option QueueSourceType}

@[simp] theorem length_setQueue (generateUUID : Nat → String) (items : List MediaItem) :
    (setQueue generateUUID items).length = items.length := List.length_mapIdx

theorem unwrapMediaItems_eq (items : List MediaItem) : unwrapMediaItems items = items := by
  unfold unwrapMediaItems
  induction items with
  | nil => rfl
  | cons item rest ih =>
    cases item with
    | song song => exact congrArg (List.cons (MediaItem.song song)) ih
    | video video => exact congrArg (List.cons (MediaItem.video video)) ih

theorem prepareMediaItems_eq (songs : List (Song ⊕ MediaItem)) :
    prepareMediaItems songs = toMediaItems songs := unwrapMediaItems_eq _

@[simp] theorem length_markPlaylist (source : Option QueueSourceType) (items : List MediaItem) :
    (markPlaylist source items).length = items.length := by
  unfold markPlaylist
  split
  · exact List.length_map _
  · rfl

theorem markPlaylist_infix {part items : List MediaItem} (within : part <:+: items)
    (source : Option QueueSourceType) : markPlaylist source part <:+: markPlaylist source items := by
  unfold markPlaylist
  split
  · exact within.map _
  · exact within

theorem markPlaylist_twice (source : Option QueueSourceType) (items : List MediaItem) :
    markPlaylist source (markPlaylist source items) = markPlaylist source items := by
  unfold markPlaylist
  split
  · rw [List.map_map]
    refine List.map_congr_left fun item _ => ?_
    cases item with
    | song song => rfl
    | video video => rfl
  · rfl

theorem window_infixed (items : List MediaItem) (start limit : Nat) :
    (items.drop start).take limit <:+: items :=
  (List.take_prefix _ _).isInfix.trans (List.drop_suffix _ _).isInfix

theorem truncateAround_spec (items : List MediaItem) (startIndex limit : Nat) :
    (truncateAround items startIndex limit).1 <:+: items ∧
      (truncateAround items startIndex limit).1.length ≤ limit := by
  unfold truncateAround
  split
  · split
    · exact ⟨(List.take_prefix _ _).isInfix, List.length_take_le _ _⟩
    · exact ⟨window_infixed _ _ _, List.length_take_le _ _⟩
  · rename_i fits
    exact ⟨List.infix_rfl, not_lt.mp fits⟩

theorem truncateFrom_spec (items : List MediaItem) (availableIndex limit : Nat) :
    truncateFrom items availableIndex limit <:+: items ∧
      (truncateFrom items availableIndex limit).length ≤ limit := by
  unfold truncateFrom
  split
  · exact ⟨window_infixed _ _ _, List.length_take_le _ _⟩
  · rename_i fits
    exact ⟨List.infix_rfl, not_lt.mp fits⟩

theorem insertAfter_spec (key : String) (items currentQueue : List MediaItem) :
    ∃ front back, insertAfter key items currentQueue = front ++ items ++ back ∧
      front ++ back = currentQueue := by
  unfold insertAfter
  split
  · exact ⟨currentQueue, [], (List.append_nil _).symm, List.append_nil _⟩
  · rename_i idx _
    exact ⟨_, _, rfl, List.take_append_drop (idx + 1) currentQueue⟩

theorem removeFromStart_spec {currentId : Option String} {incoming : Nat}
    {trimmed : List MediaItem} (fits : incoming ≤ limit)
    (trims : removeFromStart currentQueue currentId incoming limit = some trimmed) :
    trimmed <:+ currentQueue ∧ trimmed.length + incoming ≤ limit ∧
      ∀ idx current, currentQueue[idx]? = some current →
        currentQueue.length + incoming ≤ idx + limit → current ∈ trimmed := by
  have dropped : currentQueue.drop (currentQueue.length + incoming - limit) = trimmed := by
    have taken (p : Prop) [Decidable p] (rest : List MediaItem)
        (answer : (if p then none else some rest) = some trimmed) : rest = trimmed := by
      split at answer
      · cases answer
      · exact Option.some.inj answer
    exact taken _ _ trims
  rw [← dropped]
  refine ⟨List.drop_suffix _ _, ?_, fun idx current there enough => ?_⟩
  · rw [List.length_drop]
    omega
  · have before : currentQueue.length + incoming - limit ≤ idx := by omega
    apply List.mem_of_getElem? (i := idx - (currentQueue.length + incoming - limit))
    rw [List.getElem?_drop, Nat.add_sub_cancel' before, there]

end Pieces

section Calls

variable {env : Surroundings} {state : AppState} {incoming queue : List MediaItem}
  {plays : Option MediaItem}

/-- The queue that a call leaves: old items from some point on, around the new ones. The current item
is among them where nothing has to go, or the user lets items go from the start and enough of them
stand before it. -/
structure Enqueued (env : Surroundings) (state : AppState) (incoming : List MediaItem)
    (replaces : Prop) (queue : List MediaItem) : Prop where
  length_le : queue.length ≤ env.queueSizeLimit
  woven : ∃ front added back, queue = setQueue env.generateUUID (front ++ added ++ back) ∧
    front ++ back <:+ state.queue ∧ added <:+: incoming ∧
    ∀ idx current, currentIndex state.currentId state.queue = some idx →
      state.queue[idx]? = some current → ¬ replaces →
      state.queue.length + added.length ≤ env.queueSizeLimit ∨
        (env.queueFull = .removeFromStart ∧
          state.queue.length + added.length ≤ idx + env.queueSizeLimit) →
      current ∈ front ++ back

variable {replaces : Prop} {items : List MediaItem}

theorem Enqueued.of_replaced (fits : items.length ≤ env.queueSizeLimit) (part : items <:+: incoming)
    (reason : replaces ∨ state.queue = [] ∨
      env.queueSizeLimit < state.queue.length + items.length ∧
        (env.queueFull = .clearAll ∨ removeFromStart state.queue state.currentId items.length
          env.queueSizeLimit = none)) :
    Enqueued env state incoming replaces (setQueue env.generateUUID items) where
  length_le := (length_setQueue _ _).trans_le fits
  woven := by
    refine ⟨[], items, [], by rw [List.nil_append, List.append_nil], List.nil_suffix, part, ?_⟩
    intro idx current found there kept room
    obtain replaced | empty | ⟨full, cleared | stuck⟩ := reason
    · exact absurd replaced kept
    · rw [empty] at there
      cases there
    · obtain fits | ⟨trims, -⟩ := room
      · exact absurd full (not_lt.mpr fits)
      · rw [cleared] at trims
        cases trims
    · obtain fits | ⟨-, enough⟩ := room
      · exact absurd full (not_lt.mpr fits)
      · unfold removeFromStart at stuck
        rw [found] at stuck
        cases idx with
        | zero => omega
        | succ idx =>
          have allowed : ¬ idx + 1 < state.queue.length + items.length - env.queueSizeLimit := by
            omega
          dsimp only at stuck
          rw [if_neg allowed] at stuck
          cases stuck

variable {kept : List MediaItem}

theorem Enqueued.of_inserted {newQueue front back : List MediaItem}
    (fits : items.length ≤ env.queueSizeLimit) (part : items <:+: incoming)
    (inserted : newQueue = front ++ items ++ back) (old : front ++ back = kept)
    (reason : kept = state.queue ∧ state.queue.length + items.length ≤ env.queueSizeLimit ∨
      env.queueSizeLimit < state.queue.length + items.length ∧ removeFromStart state.queue
        state.currentId items.length env.queueSizeLimit = some kept) :
    Enqueued env state incoming replaces (setQueue env.generateUUID newQueue) := by
  have count : newQueue.length = kept.length + items.length := by
    rw [inserted, ← old]
    simp only [List.length_append]
    omega
  obtain ⟨rfl, room⟩ | ⟨full, trims⟩ := reason
  · refine ⟨by rw [length_setQueue, count]; exact room, front, items, back, by rw [inserted],
      old ▸ List.suffix_rfl, part, fun idx current found there _ _ => ?_⟩
    rw [old]
    exact List.mem_of_getElem? there
  · obtain ⟨suffix, short, stays⟩ := removeFromStart_spec fits trims
    refine ⟨by rw [length_setQueue, count]; exact short, front, items, back, by rw [inserted],
      old ▸ suffix, part, fun idx current found there _ room => ?_⟩
    rw [old]
    obtain roomy | ⟨-, enough⟩ := room
    · exact absurd full (not_lt.mpr roomy)
    · exact stays idx current there enough

theorem Enqueued.mono {less more : List MediaItem} {replaces' : Prop}
    (enqueued : Enqueued env state less replaces queue) (part : less <:+: more)
    (weaker : replaces → replaces') : Enqueued env state more replaces' queue where
  length_le := enqueued.length_le
  woven := by
    obtain ⟨front, added, back, same, old, new, stays⟩ := enqueued.woven
    exact ⟨front, added, back, same, old, new.trans part, fun idx current found there kept =>
      stays idx current found there (kept ∘ weaker)⟩

theorem playQueueInternal_enqueues {startIndex : Nat}
    (fits : items.length ≤ env.queueSizeLimit) (part : items <:+: incoming)
    (reason : kept = state.queue ∧ state.queue.length + items.length ≤ env.queueSizeLimit ∨
      env.queueSizeLimit < state.queue.length + items.length ∧ removeFromStart state.queue
        state.currentId items.length env.queueSizeLimit = some kept)
    (ran : playQueueInternal env items kept state.currentId startIndex = .set queue plays) :
    Enqueued env state incoming replaces queue := by
  unfold playQueueInternal at ran
  cases current : state.currentId with
  | none =>
    rw [current] at ran
    cases ran
    exact .of_inserted fits part (List.nil_append _).symm (List.nil_append _) reason
  | some key =>
    rw [current] at ran
    cases ran
    obtain ⟨front, back, inserted, old⟩ := insertAfter_spec key items kept
    exact .of_inserted fits part inserted old reason

theorem addToQueueInternal_enqueues {startPlaying : Bool} {position : Position}
    (fits : items.length ≤ env.queueSizeLimit) (part : items <:+: incoming)
    (reason : kept = state.queue ∧ state.queue.length + items.length ≤ env.queueSizeLimit ∨
      env.queueSizeLimit < state.queue.length + items.length ∧ removeFromStart state.queue
        state.currentId items.length env.queueSizeLimit = some kept)
    (ran : addToQueueInternal env items kept state.currentId startPlaying position =
      .set queue plays) : Enqueued env state incoming replaces queue := by
  unfold addToQueueInternal at ran
  have before : Enqueued env state incoming replaces
      (setQueue env.generateUUID (items ++ kept)) :=
    .of_inserted fits part (List.nil_append _).symm (List.nil_append _) reason
  cases position with
  | atEnd =>
    cases ran
    exact .of_inserted fits part (List.append_nil _).symm (List.append_nil _) reason
  | next =>
    cases current : state.currentId with
    | none =>
      rw [current] at ran
      cases ran
      exact before
    | some key =>
      rw [current] at ran
      dsimp only at ran
      by_cases empty : kept = []
      · rw [if_pos empty] at ran
        cases ran
        exact before
      · rw [if_neg empty] at ran
        cases ran
        obtain ⟨front, back, inserted, old⟩ := insertAfter_spec key items kept
        exact .of_inserted fits part inserted old reason

theorem addToQueue_enqueues {songs : List (Song ⊕ MediaItem)} {startPlaying : Bool}
    {position : Position} {source : Option QueueSourceType}
    (ran : addToQueue env state songs startPlaying position source = .set queue plays) :
    Enqueued env state (markPlaylist source (toMediaItems songs)) False queue := by
  unfold addToQueue at ran
  rw [prepareMediaItems_eq] at ran
  split at ran
  · cases ran
  dsimp only at ran
  split at ran
  · cases ran
  rename_i availableIndex _
  obtain ⟨within, short⟩ :=
    truncateFrom_spec (toMediaItems songs) availableIndex env.queueSizeLimit
  have part := markPlaylist_infix within source
  rw [← length_markPlaylist source] at short
  generalize markPlaylist source (truncateFrom (toMediaItems songs) availableIndex
    env.queueSizeLimit) = finalItems at ran part short
  split at ran
  · rename_i full
    split at ran
    · cases ran
    · rename_i cleared
      cases ran
      exact .of_replaced short part (.inr (.inr ⟨full, .inl cleared⟩))
    · split at ran
      · rename_i stuck
        cases ran
        exact .of_replaced short part (.inr (.inr ⟨full, .inr stuck⟩))
      · rename_i trims
        exact addToQueueInternal_enqueues short part (.inr ⟨full, trims⟩) ran
  · rename_i room
    exact addToQueueInternal_enqueues short part (.inl ⟨rfl, not_lt.mp room⟩) ran

theorem playQueue_enqueues {songs : List (Song ⊕ MediaItem)} {requestedStartIndex : Int}
    {source : Option QueueSourceType}
    (ran : playQueue env state songs requestedStartIndex source = .set queue plays) :
    Enqueued env state (markPlaylist source (toMediaItems songs))
      ((Call.playQueue songs requestedStartIndex source).Replaces env) queue := by
  unfold playQueue at ran
  rw [prepareMediaItems_eq] at ran
  split at ran
  · cases ran
  dsimp only at ran
  split at ran
  · cases ran
  rename_i availableIndex _
  obtain ⟨within, short⟩ :=
    truncateAround_spec (toMediaItems songs) availableIndex env.queueSizeLimit
  have part := markPlaylist_infix within source
  have marked := markPlaylist_twice source
    (truncateAround (toMediaItems songs) availableIndex env.queueSizeLimit).1
  rw [← length_markPlaylist source] at short
  generalize (truncateAround (toMediaItems songs) availableIndex env.queueSizeLimit).2 =
    startIndex at ran
  generalize markPlaylist source (truncateAround (toMediaItems songs) availableIndex
    env.queueSizeLimit).1 = finalItems at ran part short marked
  split at ran
  · rename_i empty
    cases ran
    exact .of_replaced short part (.inr (.inl empty))
  split at ran
  · rename_i replacing
    split at ran
    · split at ran
      · cases ran
      · have again : markPlaylist source (toMediaItems (finalItems.map Sum.inr)) = finalItems := by
          rw [toMediaItems, List.map_map]
          exact (congrArg (markPlaylist source) (List.map_id finalItems)).trans marked
        have enqueued := addToQueue_enqueues ran
        rw [again] at enqueued
        exact enqueued.mono part False.elim
      · rename_i agreed
        cases ran
        exact .of_replaced short part (.inl ⟨replacing, fun _ => agreed⟩)
    · rename_i alone
      cases ran
      exact .of_replaced short part (.inl ⟨replacing, fun queued => absurd queued alone⟩)
  split at ran
  · rename_i full
    split at ran
    · cases ran
    · rename_i cleared
      cases ran
      exact .of_replaced short part (.inr (.inr ⟨full, .inl cleared⟩))
    · split at ran
      · rename_i stuck
        cases ran
        exact .of_replaced short part (.inr (.inr ⟨full, .inr stuck⟩))
      · rename_i trims
        exact playQueueInternal_enqueues short part (.inr ⟨full, trims⟩) ran
  · rename_i room
    exact playQueueInternal_enqueues short part (.inl ⟨rfl, not_lt.mp room⟩) ran

/-- Whatever is played or added, the queue that is set is no longer than the limit, keeps the order of
its old items and of its new ones, and keeps the current item unless the call replaces the queue, the
user clears it, or more items would have to go than stand before the current one. -/
theorem run_enqueues {call : Call} (ran : call.run env state = .set queue plays) :
    Enqueued env state call.incoming (call.Replaces env) queue := by
  cases call with
  | playQueue songs requestedStartIndex source => exact playQueue_enqueues ran
  | addToQueue songs startPlaying position source => exact addToQueue_enqueues ran

end Calls

def queuedSong (id : String) : Song := ⟨id, "", none, some id, none⟩

def pairPlaying : AppState where
  queue := [.song (queuedSong "first"), .song (queuedSong "second")]
  currentItemKey := some "second"

def twoAtMost (queueFull : QueueFullChoice) : Surroundings where
  queueSizeLimit := 2
  queueFull := queueFull
  replaceQueue := .cancel
  remoteQueued := false
  playbackEnded := false
  generateUUID := fun _ => ""

def addThird : Call := .addToQueue [.inl (queuedSong "third")] false .atEnd none

theorem third_pushes_first :
    addThird.run (twoAtMost .removeFromStart) pairPlaying =
        .set [.song (queuedSong "second"), .song (queuedSong "third")] none ∧
      Enqueued (twoAtMost .removeFromStart) pairPlaying addThird.incoming
        (addThird.Replaces (twoAtMost .removeFromStart))
        [.song (queuedSong "second"), .song (queuedSong "third")] :=
  ⟨by decide, @run_enqueues _ _ _ none _ (by decide)⟩

/-- A user who clears the queue for what is added loses the song that plays. -/
theorem current_cleared_for_added :
    addThird.run (twoAtMost .clearAll) pairPlaying = .set [.song (queuedSong "third")] none ∧
      currentIndex pairPlaying.currentId pairPlaying.queue = some 1 ∧
      currentIndex pairPlaying.currentId [.song (queuedSong "third")] = none := by
  decide

end Tomb.Spume.Enqueue
