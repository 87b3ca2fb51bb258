import Tomb.Lib.Runs
import Tomb.Grimoire.Radio.Broadcaster

/-! What a listener is written between two lag notices: chunks in order, none twice, none missing
after the first media chunk, and every media chunk under the init of its track. -/
namespace Tomb.Grimoire.Radio
open Tomb.Lib

/-- The chunks come under the inits of their tracks; the first ones are under the given track. -/
@[grind =] def UnderInit : Option Nat → List Chunk → Prop
  | _, [] => True
  | track, c :: rest =>
    if c.isInit then UnderInit (some c.track) rest else track = some c.track ∧ UnderInit track rest

instance decidableUnderInit : (track : Option Nat) → (chunks : List Chunk) →
    Decidable (UnderInit track chunks)
  | _, [] => .isTrue trivial
  | track, c :: rest =>
    have := decidableUnderInit (some c.track) rest
    have := decidableUnderInit track rest
    inferInstanceAs (Decidable (if c.isInit then UnderInit (some c.track) rest
      else track = some c.track ∧ UnderInit track rest))

@[grind =] def underTrack (track : Option Nat) (chunks : List Chunk) : Option Nat :=
  chunks.foldl (fun track c => if c.isInit then some c.track else track) track

structure Intact (published part : List Chunk) : Prop where
  increasing : part.Pairwise (·.seq < ·.seq)
  complete : part.dropWhile (·.isInit) <:+: published
  underInit : UnderInit none part

namespace Broadcaster

/-- When a step may happen: the seq counter does not wrap, and no listener subscribes to the channel
between a change of the state and the sending of its chunk. -/
def Timely : BroadcastOp → Broadcaster → Prop
  | .startTrack _, b => b.nextSeq + 1 < 2 ^ 32
  | .nextChunk _ _, b => b.nextSeq + 1 < 2 ^ 32
  | .attach _, b => b.published = b.sent
  | _, _ => True

instance : (op : BroadcastOp) → (b : Broadcaster) → Decidable (Timely op b)
  | .startTrack _, b => inferInstanceAs (Decidable (b.nextSeq + 1 < 2 ^ 32))
  | .nextChunk _ _, b => inferInstanceAs (Decidable (b.nextSeq + 1 < 2 ^ 32))
  | .attach _, b => inferInstanceAs (Decidable (b.published = b.sent))
  | .update, _ => .isTrue trivial
  | .send, _ => .isTrue trivial
  | .clear, _ => .isTrue trivial
  | .tune _, _ => .isTrue trivial
  | .snapshot _, _ => .isTrue trivial
  | .forward _, _ => .isTrue trivial

end Broadcaster

section Chunks

variable {published part more : List Chunk} {track : Option Nat} {c : Chunk}

theorem underTrack_append (track : Option Nat) (chunks more : List Chunk) :
    underTrack track (chunks ++ more) = underTrack (underTrack track chunks) more :=
  List.foldl_append

variable {chunks : List Chunk}

theorem UnderInit.append (first : UnderInit track chunks)
    (second : UnderInit (underTrack track chunks) more) : UnderInit track (chunks ++ more) := by
  induction chunks generalizing track with
  | nil => exact second
  | cons c rest ih =>
    unfold UnderInit at first
    rw [List.cons_append]
    unfold UnderInit
    unfold underTrack at second
    rw [List.foldl_cons] at second
    split at first
    · rename_i init
      rw [if_pos init] at second ⊢
      exact ih first second
    · rename_i media
      rw [if_neg media] at second ⊢
      exact ⟨first.1, ih first.2 second⟩

theorem UnderInit.of_append (all : UnderInit track (chunks ++ more)) : UnderInit track chunks := by
  induction chunks generalizing track with
  | nil => trivial
  | cons c rest ih =>
    rw [List.cons_append] at all
    unfold UnderInit at all ⊢
    split at all
    · rename_i init
      rw [if_pos init]
      exact ih all
    · rename_i media
      rw [if_neg media]
      exact ⟨all.1, ih all.2⟩

theorem underInit_media {number : Nat} (media : ∀ c ∈ chunks, c.isInit = false ∧ c.track = number) :
    UnderInit (some number) chunks ∧ underTrack (some number) chunks = some number := by
  induction chunks with
  | nil => exact ⟨trivial, rfl⟩
  | cons c rest ih =>
    obtain ⟨noInit, same⟩ := media c (.head _)
    obtain ⟨under, last⟩ := ih fun other member => media other (.tail _ member)
    constructor
    · unfold UnderInit
      rw [noInit, if_neg Bool.false_ne_true, same]
      exact ⟨rfl, under⟩
    · unfold underTrack
      rw [List.foldl_cons, noInit, if_neg Bool.false_ne_true]
      exact last

theorem dropWhile_leads (first : part <+: more) :
    part.dropWhile (·.isInit) <+: more.dropWhile (·.isInit) := by
  obtain ⟨later, rfl⟩ := first
  induction part with
  | nil => exact List.nil_prefix
  | cons c rest ih =>
    rw [List.cons_append, List.dropWhile_cons, List.dropWhile_cons]
    split
    · exact ih
    · exact List.prefix_append _ _

theorem dropWhile_suffix (suffix : part.dropWhile (·.isInit) <:+ published) (c : Chunk) :
    (part ++ [c]).dropWhile (·.isInit) <:+ published ++ [c] := by
  induction part with
  | nil =>
    rw [List.nil_append]
    exact (List.dropWhile_suffix _).trans (List.suffix_append _ _)
  | cons first rest ih =>
    rw [List.cons_append, List.dropWhile_cons]
    rw [List.dropWhile_cons] at suffix
    by_cases init : first.isInit = true
    · rw [if_pos init] at suffix ⊢
      exact ih suffix
    · rw [if_neg init] at suffix ⊢
      obtain ⟨before, rfl⟩ := suffix
      rw [List.append_assoc]
      exact List.suffix_append _ _

theorem Intact.later (intact : Intact published part) (more : List Chunk) :
    Intact (published ++ more) part where
  increasing := intact.increasing
  complete := intact.complete.trans (List.prefix_append _ _).isInfix
  underInit := intact.underInit

end Chunks

/-- What a listener has been written, has to write and can still read from the channel; the next
media chunk that is sent is of the given track. -/
structure Stream (sent stream : List Chunk) (track : Option Nat) : Prop where
  known : ∀ c ∈ stream, c ∈ sent
  increasing : stream.Pairwise (·.seq < ·.seq)
  complete : stream.dropWhile (·.isInit) <:+ sent
  underInit : UnderInit none stream
  goesOn : ∀ number, track = some number → underTrack none stream = some number

section Streams

variable {sent stream part : List Chunk} {track : Option Nat} {c : Chunk}

theorem Stream.intact (ok : Stream sent stream track) (first : part <+: stream) :
    Intact sent part where
  increasing := ok.increasing.sublist first.sublist
  complete := (dropWhile_leads first).isInfix.trans ok.complete.isInfix
  underInit := by
    obtain ⟨later, rfl⟩ := first
    exact ok.underInit.of_append

theorem Stream.imp (ok : Stream sent stream track) {track' : Option Nat}
    (weaker : ∀ number, track' = some number → track = some number) :
    Stream sent stream track' where
  known := ok.known
  increasing := ok.increasing
  complete := ok.complete
  underInit := ok.underInit
  goesOn number same := ok.goesOn number (weaker number same)

theorem Stream.send (ok : Stream sent stream track) (above : ∀ earlier ∈ sent, earlier.seq < c.seq)
    (fits : c.isInit = false → track = some c.track) :
    Stream (sent ++ [c]) (stream ++ [c]) (some c.track) where
  known other member := by
    rcases List.mem_append.mp member with before | last
    · exact List.mem_append_left _ (ok.known other before)
    · exact List.mem_append_right _ last
  increasing := by
    refine List.pairwise_append.mpr ⟨ok.increasing, List.pairwise_singleton _ _, ?_⟩
    intro earlier member last same
    rw [List.mem_singleton.mp same]
    exact above earlier (ok.known earlier member)
  complete := dropWhile_suffix ok.complete c
  underInit := by
    refine ok.underInit.append ?_
    unfold UnderInit
    split
    · trivial
    · rename_i media
      exact ⟨ok.goesOn _ (fits (eq_false_of_ne_true media)), trivial⟩
  goesOn number same := by
    obtain rfl : c.track = number := Option.some.inj same
    rw [underTrack_append]
    unfold underTrack
    rw [List.foldl_cons, List.foldl_nil]
    split
    · rfl
    · rename_i media
      exact ok.goesOn _ (fits (eq_false_of_ne_true media))

end Streams

/-- The state holds the init of a track, and the last media chunks of this track. -/
@[grind =] def Holds (state : BroadcastState) (published : List Chunk) : Prop :=
  match state.currentInit with
  | none => state.ring = []
  | some init => init.isInit = true ∧ ∃ before missed,
      published = before ++ init :: (missed ++ state.ring) ∧
      ∀ c ∈ missed ++ state.ring, c.isInit = false ∧ c.track = init.track

@[grind =] def Publishing.track : Publishing → Option Nat
  | .ready track => track
  | .allocated c => if c.isInit then none else some c.track
  | .updated c => if c.isInit then none else some c.track

def Publishing.stateTrack : Publishing → Option Nat
  | .updated c => some c.track
  | publishing => publishing.track

@[grind =] def Publishing.chunk : Publishing → List Chunk
  | .ready _ => []
  | .allocated c => [c]
  | .updated c => [c]

structure ListenerOk (state : BroadcastState) (sent : List Chunk) (track : Option Nat)
    (l : Listener) : Prop where
  finished : ∀ part ∈ l.finished, Intact sent part
  reading : ∀ init catchup, l.listening = .reading init catchup →
    init = state.currentInit ∧ catchup <:+ state.ring
  live : ∀ written toWrite next, l.listening = .live written toWrite next →
    next ≤ sent.length ∧ Stream sent (written ++ (toWrite ++ sent.drop next)) track

structure Consistent (b : Broadcaster) : Prop where
  increasing : (b.sent ++ b.publishing.chunk).Pairwise (·.seq < ·.seq)
  below : ∀ c ∈ b.sent ++ b.publishing.chunk, c.seq < b.nextSeq
  holds : Holds b.state b.published
  current : ∀ number, b.publishing.stateTrack = some number →
    b.state.currentInit.map (·.track) = some number
  listeners : ∀ l ∈ b.listeners, ListenerOk b.state b.sent b.publishing.track l

section Listeners

variable {state state' : BroadcastState} {sent : List Chunk} {track track' : Option Nat}
  {l : Listener}

theorem ListenerOk.update (ok : ListenerOk state sent track l) (free : l.isReading = false)
    (weaker : ∀ number, track' = some number → track = some number) :
    ListenerOk state' sent track' l where
  finished := ok.finished
  reading init catchup reads := by
    rw [Listener.isReading, reads] at free
    cases free
  live written toWrite next subscribed :=
    ⟨(ok.live written toWrite next subscribed).1,
      (ok.live written toWrite next subscribed).2.imp weaker⟩

theorem ListenerOk.allocate (ok : ListenerOk state sent track l)
    (weaker : ∀ number, track' = some number → track = some number) :
    ListenerOk state sent track' l where
  finished := ok.finished
  reading := ok.reading
  live written toWrite next subscribed :=
    ⟨(ok.live written toWrite next subscribed).1,
      (ok.live written toWrite next subscribed).2.imp weaker⟩

theorem ListenerOk.send (ok : ListenerOk state sent track l) {c : Chunk}
    (above : ∀ earlier ∈ sent, earlier.seq < c.seq) (fits : c.isInit = false → track = some c.track) :
    ListenerOk state (sent ++ [c]) (some c.track) l where
  finished part member := (ok.finished part member).later [c]
  reading := ok.reading
  live written toWrite next subscribed := by
    obtain ⟨within, stream⟩ := ok.live written toWrite next subscribed
    refine ⟨within.trans (List.length_append ▸ Nat.le_add_right _ _), ?_⟩
    have grown := stream.send above fits
    rw [List.append_assoc, List.append_assoc, ← List.drop_append_of_le_length within] at grown
    exact grown

theorem Holds.stream (holds : Holds state sent) (increasing : sent.Pairwise (·.seq < ·.seq))
    (current : ∀ number, track = some number → state.currentInit.map (·.track) = some number)
    {catchup : List Chunk} (last : catchup <:+ state.ring) :
    Stream sent (state.currentInit.toList ++ catchup) track := by
  unfold Holds at holds
  cases known : state.currentInit with
  | none =>
    rw [known] at holds current
    rw [holds] at last
    rw [List.suffix_nil.mp last]
    exact ⟨fun c none => (nomatch none), .nil, List.nil_suffix, trivial,
      fun number same => (nomatch current number same)⟩
  | some init =>
    rw [known] at holds current
    obtain ⟨isInit, before, missed, rfl, media⟩ := holds
    obtain ⟨skipped, split⟩ := last
    have mediaLast : ∀ c ∈ catchup, c.isInit = false ∧ c.track = init.track := by
      intro c member
      refine media c (List.mem_append_right _ ?_)
      rw [← split]
      exact List.mem_append_right _ member
    have part : (init :: catchup).Sublist (before ++ init :: (missed ++ state.ring)) := by
      refine List.Sublist.trans (.cons_cons _ ?_) (List.sublist_append_right _ _)
      rw [← split]
      exact (List.sublist_append_right _ _).trans (List.sublist_append_right _ _)
    have rest : catchup.dropWhile (·.isInit) = catchup := by
      cases catchup with
      | nil => rfl
      | cons c others =>
        rw [List.dropWhile_cons, (mediaLast c (.head _)).1, if_neg Bool.false_ne_true]
    obtain ⟨under, ends⟩ := underInit_media mediaLast
    refine ⟨fun c member => part.subset member, increasing.sublist part, ?_, ?_, ?_⟩
    · simp only [Option.toList_some, List.singleton_append, List.dropWhile_cons, isInit, if_true,
        rest, ← split]
      exact ⟨before ++ init :: (missed ++ skipped), by simp⟩
    · simp only [Option.toList_some, List.singleton_append, UnderInit, isInit, if_true]
      exact under
    · intro number same
      have here : init.track = number := Option.some.inj (current number same)
      simp only [Option.toList_some, List.singleton_append, underTrack, List.foldl_cons, isInit,
        if_true]
      rw [← here]
      exact ends

end Listeners

section Publish

variable {state : BroadcastState} {published : List Chunk} {c : Chunk}

theorem Holds.publish (holds : Holds state published)
    (fits : c.isInit = false → state.currentInit.map (·.track) = some c.track) :
    Holds (state.publish c) (published ++ [c]) := by
  unfold BroadcastState.publish
  cases init : c.isInit with
  | true => exact ⟨init, published, [], rfl, fun other none => nomatch none⟩
  | false =>
    obtain ⟨current, known, same⟩ := Option.map_eq_some_iff.mp (fits init)
    unfold Holds at holds
    rw [known] at holds
    obtain ⟨isInit, before, missed, rfl, media⟩ := holds
    have mediaAll : ∀ other ∈ missed ++ (state.ring ++ [c]),
        other.isInit = false ∧ other.track = current.track := by
      intro other member
      rw [← List.append_assoc] at member
      rcases List.mem_append.mp member with earlier | last
      · exact media other earlier
      · rw [List.mem_singleton.mp last]
        exact ⟨init, same.symm⟩
    simp only [Bool.false_eq_true, if_false, BroadcastState.publishMedia, Holds, known]
    refine ⟨isInit, ?_⟩
    split
    · cases grown : state.ring ++ [c] with
      | nil => simp at grown
      | cons oldest ring =>
        rw [grown] at mediaAll
        refine ⟨before, missed ++ [oldest], ?_, ?_⟩
        · rw [List.append_assoc, List.append_assoc, List.cons_append, List.append_assoc, grown]
          rfl
        · simpa using mediaAll
    · exact ⟨before, missed, by simp, mediaAll⟩

theorem Holds.ring_suffix (holds : Holds state published) : state.ring <:+ published := by
  unfold Holds at holds
  cases known : state.currentInit with
  | none =>
    rw [known] at holds
    rw [holds]
    exact List.nil_suffix
  | some init =>
    rw [known] at holds
    obtain ⟨-, before, missed, rfl, -⟩ := holds
    exact ⟨before ++ init :: missed, by simp⟩

theorem filter_suffix {ring : List Chunk} (increasing : ring.Pairwise (·.seq < ·.seq))
    (fromSeq : Option Nat) : ring.filter (fun c => fromSeq.all (· ≤ c.seq)) <:+ ring := by
  induction ring with
  | nil => exact List.nil_suffix
  | cons c rest ih =>
    obtain ⟨above, later⟩ := List.pairwise_cons.mp increasing
    rw [List.filter_cons]
    split
    · rename_i starts
      have all : rest.filter (fun c => fromSeq.all (· ≤ c.seq)) = rest := by
        refine List.filter_eq_self.mpr fun other member => ?_
        cases fromSeq with
        | none => rfl
        | some seq =>
          have first : seq ≤ c.seq := of_decide_eq_true starts
          exact decide_eq_true (first.trans (above other member).le)
      rw [all]
    · exact (ih later).trans (List.suffix_cons _ _)

theorem Holds.clear (state : BroadcastState) (published : List Chunk) :
    Holds state.clear published := rfl

end Publish

section Steps

open Broadcaster

variable {b : Broadcaster}

theorem forall_setListener {P : Listener → Prop} {i : Nat} {l : Listener}
    (all : ∀ other ∈ b.listeners, P other) (this : P l) :
    ∀ other ∈ (b.setListener i l).listeners, P other := by
  intro other member
  rcases List.mem_or_eq_of_mem_set member with before | same
  · exact all other before
  · rw [same]
    exact this

theorem track_stateTrack {publishing : Publishing} {number : Nat}
    (same : publishing.track = some number) : publishing.stateTrack = some number := by
  cases publishing with
  | ready track => exact same
  | allocated c => exact same
  | updated c =>
    simp only [Publishing.track] at same
    split at same
    · cases same
    · exact same

theorem Consistent.setListener (consistent : Consistent b) {i : Nat} {l : Listener}
    (ok : ListenerOk b.state b.sent b.publishing.track l) : Consistent (b.setListener i l) where
  increasing := consistent.increasing
  below := consistent.below
  holds := consistent.holds
  current := consistent.current
  listeners := forall_setListener consistent.listeners ok

theorem Consistent.tune (consistent : Consistent b) (fromSeq : Option Nat) :
    Consistent (b.tune fromSeq) where
  increasing := consistent.increasing
  below := consistent.below
  holds := consistent.holds
  current := consistent.current
  listeners l member := by
    rcases List.mem_append.mp member with before | last
    · exact consistent.listeners l before
    · rw [List.mem_singleton.mp last]
      exact ⟨fun part none => (nomatch none), fun init catchup reads => (nomatch reads),
        fun written toWrite next subscribed => nomatch subscribed⟩

theorem Consistent.published_increasing (consistent : Consistent b) :
    b.published.Pairwise (·.seq < ·.seq) := by
  have increasing := consistent.increasing
  unfold published
  split
  · rename_i chunk updated
    rw [updated] at increasing
    exact increasing
  · exact increasing.sublist (List.sublist_append_left _ _)

theorem Consistent.snapshot (consistent : Consistent b) (i : Nat) : Consistent (b.snapshot i) := by
  unfold Broadcaster.snapshot
  split
  · rename_i fromSeq finished here
    have ok := consistent.listeners _ (List.mem_of_getElem? here)
    refine consistent.setListener ⟨ok.finished, fun init catchup reads => ?_,
      fun written toWrite next subscribed => nomatch subscribed⟩
    cases reads
    have ring := consistent.holds.ring_suffix.sublist
    exact ⟨rfl, filter_suffix (consistent.published_increasing.sublist ring) fromSeq⟩
  · exact consistent

theorem Consistent.attach (consistent : Consistent b) (timely : b.published = b.sent) (i : Nat) :
    Consistent (b.attach i) := by
  unfold Broadcaster.attach
  split
  · rename_i init catchup finished here
    have ok := consistent.listeners _ (List.mem_of_getElem? here)
    refine consistent.setListener ⟨ok.finished, fun init catchup reads => (nomatch reads),
      fun written toWrite next subscribed => ?_⟩
    cases subscribed
    obtain ⟨rfl, last⟩ := ok.reading init catchup rfl
    have holds := consistent.holds
    have increasing := consistent.published_increasing
    rw [timely] at holds increasing
    refine ⟨Nat.le_refl _, ?_⟩
    rw [List.drop_length, List.append_nil, List.nil_append]
    have current : ∀ number, b.publishing.track = some number →
        b.state.currentInit.map (·.track) = some number :=
      fun number same => consistent.current number (track_stateTrack same)
    exact holds.stream increasing current last
  · exact consistent

theorem Consistent.forward (consistent : Consistent b) (i : Nat) : Consistent (b.forward i) := by
  unfold Broadcaster.forward
  split
  · rename_i written chunk rest next finished here
    have ok := consistent.listeners _ (List.mem_of_getElem? here)
    refine consistent.setListener ⟨ok.finished, fun init catchup reads => (nomatch reads),
      fun written toWrite next subscribed => ?_⟩
    cases subscribed
    obtain ⟨within, stream⟩ := ok.live written (chunk :: rest) next rfl
    refine ⟨within, ?_⟩
    rw [List.append_assoc, List.singleton_append]
    exact stream
  · rename_i written next finished here
    have ok := consistent.listeners _ (List.mem_of_getElem? here)
    obtain ⟨within, stream⟩ := ok.live written [] next rfl
    split
    · refine consistent.setListener ⟨fun part member => ?_, fun init catchup reads => (nomatch reads),
        fun written toWrite next subscribed => nomatch subscribed⟩
      rcases List.mem_cons.mp member with same | before
      · rw [same]
        exact stream.intact (List.prefix_append _ _)
      · exact ok.finished part before
    · split
      · rename_i chunk known
        refine consistent.setListener ⟨ok.finished, fun init catchup reads => (nomatch reads),
          fun written toWrite next subscribed => ?_⟩
        cases subscribed
        obtain ⟨more, same⟩ := List.getElem?_eq_some_iff.mp known
        refine ⟨more, ?_⟩
        rw [List.drop_eq_getElem_cons more, same] at stream
        rw [List.append_assoc]
        exact stream
      · exact consistent
  · exact consistent

theorem Consistent.allocate (consistent : Consistent b) {before : Option Nat}
    (ready : b.publishing = .ready before) {c : Chunk} (seq : c.seq = b.nextSeq)
    (fits : c.isInit = false → before = some c.track) (roomy : b.nextSeq + 1 < 2 ^ 32)
    (tracks : Nat) : Consistent { b with
      nextSeq := b.fetchAddSeq, tracks := tracks, publishing := .allocated c } := by
  have increasing := consistent.increasing
  have below := consistent.below
  have holds := consistent.holds
  have current := consistent.current
  have listeners := consistent.listeners
  rw [ready] at increasing below current listeners
  rw [published, ready] at holds
  simp only [Publishing.chunk, List.append_nil] at increasing below
  have next : b.fetchAddSeq = b.nextSeq + 1 := Nat.mod_eq_of_lt roomy
  have weaker : ∀ number, (Publishing.allocated c).track = some number →
      (Publishing.ready before).track = some number := by
    intro number same
    simp only [Publishing.track] at same ⊢
    split at same
    · cases same
    · rename_i media
      rw [fits (eq_false_of_ne_true media)]
      exact same
  refine ⟨?_, ?_, holds, fun number same => current number (weaker number same),
    fun l member => (listeners l member).allocate weaker⟩
  · refine List.pairwise_append.mpr ⟨increasing, List.pairwise_singleton _ _, ?_⟩
    intro earlier member last same
    rw [List.mem_singleton.mp same, seq]
    exact below earlier member
  · intro other member
    simp only [next]
    rcases List.mem_append.mp member with earlier | last
    · exact (below other earlier).trans (Nat.lt_succ_self _)
    · rw [List.mem_singleton.mp last, seq]
      exact Nat.lt_succ_self _

theorem Consistent.update (consistent : Consistent b) : Consistent b.update := by
  unfold Broadcaster.update
  split
  · rename_i c allocated
    split
    · exact consistent
    · rename_i free
      have increasing := consistent.increasing
      have below := consistent.below
      have holds := consistent.holds
      have current := consistent.current
      have listeners := consistent.listeners
      rw [allocated] at increasing below current listeners
      rw [published, allocated] at holds
      have fits : c.isInit = false → b.state.currentInit.map (·.track) = some c.track := by
        intro media
        have track : (if c.isInit then none else some c.track) = some c.track := by
          rw [media, if_neg Bool.false_ne_true]
        exact current c.track track
      refine ⟨increasing, below, holds.publish fits, fun number same => ?_, fun l member => ?_⟩
      · unfold BroadcastState.publish
        split
        · exact same
        · rename_i media
          rw [← same]
          exact fits (eq_false_of_ne_true media)
      · have unread : l.isReading = false := by
          refine eq_false_of_ne_true fun reads => free ?_
          exact List.any_eq_true.mpr ⟨l, member, reads⟩
        exact (listeners l member).update unread fun number same => same
  · exact consistent

theorem Consistent.send (consistent : Consistent b) : Consistent b.send := by
  unfold Broadcaster.send
  split
  · rename_i c updated
    have increasing := consistent.increasing
    have below := consistent.below
    have holds := consistent.holds
    have current := consistent.current
    have listeners := consistent.listeners
    rw [updated] at increasing below current listeners
    rw [published, updated] at holds
    simp only [Publishing.chunk] at increasing below
    have above : ∀ earlier ∈ b.sent, earlier.seq < c.seq := fun earlier member =>
      (List.pairwise_append.mp increasing).2.2 earlier member c (.head _)
    have fits : c.isInit = false → (Publishing.updated c).track = some c.track := by
      intro media
      simp only [Publishing.track, media, Bool.false_eq_true, if_false]
    refine ⟨?_, ?_, holds, fun number same => ?_, fun l member => (listeners l member).send above fits⟩
    · rw [Publishing.chunk, List.append_nil]
      exact increasing
    · rw [Publishing.chunk, List.append_nil]
      exact below
    · exact current number same
  · exact consistent

theorem Consistent.clear (consistent : Consistent b) : Consistent b.clear := by
  unfold Broadcaster.clear
  split
  · rename_i track ready
    split
    · exact consistent
    · rename_i free
      have increasing := consistent.increasing
      have below := consistent.below
      have listeners := consistent.listeners
      rw [ready] at increasing below listeners
      refine ⟨increasing, below, .clear _ _, fun number same => (nomatch same), fun l member => ?_⟩
      have unread : l.isReading = false := by
        refine eq_false_of_ne_true fun reads => free ?_
        exact List.any_eq_true.mpr ⟨l, member, reads⟩
      exact (listeners l member).update unread fun number same => nomatch same
  · exact consistent

theorem Consistent.step (consistent : Consistent b) (op : BroadcastOp) (timely : Timely op b) :
    Consistent (b.step op) := by
  cases op with
  | startTrack bytes =>
    change Consistent (b.startTrack bytes)
    unfold Broadcaster.startTrack
    split
    · rename_i track ready
      exact consistent.allocate ready rfl Bool.noConfusion timely _
    · exact consistent
  | nextChunk bytes durationMs =>
    change Consistent (b.nextChunk bytes durationMs)
    unfold Broadcaster.nextChunk
    split
    · rename_i track ready
      exact consistent.allocate ready rfl (fun _ => rfl) timely b.tracks
    · exact consistent
  | update => exact consistent.update
  | send => exact consistent.send
  | clear => exact consistent.clear
  | tune fromSeq => exact consistent.tune fromSeq
  | snapshot i => exact consistent.snapshot i
  | attach i => exact consistent.attach timely i
  | forward i => exact consistent.forward i

theorem ListenerOk.intact {l : Listener} (consistent : Consistent b) (member : l ∈ b.listeners) :
    ∀ part ∈ l.parts, Intact b.published part := by
  have ok := consistent.listeners l member
  have sent : ∀ part ∈ l.parts, Intact b.sent part := by
    intro part there
    unfold Listener.parts at there
    split at there
    · rename_i written toWrite next subscribed
      rcases List.mem_cons.mp there with same | before
      · rw [same]
        exact (ok.live written toWrite next subscribed).2.intact (List.prefix_append _ _)
      · exact ok.finished part before
    · exact ok.finished part there
  intro part there
  unfold published
  split
  · exact (sent part there).later _
  · exact sent part there

end Steps

namespace Broadcaster

theorem new_consistent (ringCapacity : Nat) : Consistent (new ringCapacity) where
  increasing := .nil
  below _ none := nomatch none
  holds := rfl
  current _ same := nomatch same
  listeners _ none := nomatch none

/-- Over every timely run of a new broadcaster: what any listener is written between two lag notices
is intact. -/
theorem stream_intact (ringCapacity : Nat) (ops : List BroadcastOp)
    (timely : Meets step Timely ops (new ringCapacity)) :
    ∀ l ∈ (runAll step ops (new ringCapacity)).listeners, ∀ part ∈ l.parts,
      Intact (runAll step ops (new ringCapacity)).published part := by
  have keeps : ∀ op b, Timely op b → Consistent b → Consistent (b.step op) :=
    fun op _ timely consistent => consistent.step op timely
  have consistent := timely.keeps keeps (new_consistent ringCapacity)
  exact fun l member => ListenerOk.intact consistent member

/-- A listener tunes in after the first media chunk of a track, and is written this chunk and the
next. -/
def lateListener : List BroadcastOp :=
  [.startTrack [1], .update, .send, .nextChunk [2] none, .update, .send, .tune none, .snapshot 0,
    .attach 0, .nextChunk [3] none, .update, .send, .forward 0, .forward 0, .forward 0]

theorem late_listener_intact :
    (runAll step lateListener (new 8)).listeners.map (fun l => l.parts.map (·.map (·.seq))) =
      [[[0, 1, 2]]] ∧
    ∀ l ∈ (runAll step lateListener (new 8)).listeners, ∀ part ∈ l.parts,
      Intact (runAll step lateListener (new 8)).published part :=
  ⟨by decide, stream_intact 8 lateListener (by decide)⟩

/-- A listener subscribes when a chunk is in the ring but not in the channel yet. -/
theorem early_listener_hears_twice : ¬∀ (ringCapacity : Nat) (ops : List BroadcastOp),
    ∀ l ∈ (runAll step ops (new ringCapacity)).listeners, ∀ part ∈ l.parts,
      Intact (runAll step ops (new ringCapacity)).published part := by
  intro claimed
  have intact := claimed 8 [.startTrack [1], .update, .send, .nextChunk [2] none, .update, .tune none,
    .snapshot 0, .attach 0, .send, .forward 0, .forward 0, .forward 0] _ (.head _) _ (.head _)
  have increasing := intact.increasing
  revert increasing
  decide

end Broadcaster

end Tomb.Grimoire.Radio
