import Mathlib.Data.List.Chain
import Tomb.Reliquary.Automerge.NetworkAdapter

/-! What the repo is told about the peers of the network adapter: a candidate when a stream is
registered, a disconnection when it goes. A stream that takes over from another is announced a
little later, by a timer. A listener that throws is left out. -/
namespace Tomb.Reliquary.Automerge
open Function (update update_self update_of_ne update_eq_self_iff)
open Tomb.Lib

inductive PeerEvent where
  | candidate (peerId : String)
  | disconnected (peerId : String)

def PeerEvent.peerId : PeerEvent → String
  | candidate peerId | disconnected peerId => peerId

/-- The adapter with the keys of its stream map, the streams whose announcement waits for its timer,
and the events of the run, newest first. -/
structure AnnouncingAdapter where
  adapter : NetworkAdapter
  keys : List String
  announcing : List (String × Nat)
  events : List PeerEvent

inductive AnnouncingStep where
  | adapter (op : Step)
  | announce (peerId : String) (stream : Nat)

namespace AnnouncingAdapter

def fresh : AnnouncingAdapter := ⟨.fresh, [], [], []⟩

variable (t : AnnouncingAdapter)

def emit (event : PeerEvent) : AnnouncingAdapter := { t with events := event :: t.events }

def removePeer (peerId : String) : AnnouncingAdapter :=
  let removed := { t with
    adapter := t.adapter.removePeer peerId
    keys := t.keys.filter (· ≠ peerId) }
  if t.adapter.running then removed.emit (.disconnected peerId) else removed

def endReadLoop (peerId : String) (stream : Nat) : AnnouncingAdapter :=
  if t.adapter.streams peerId = some stream then t.removePeer peerId else t

def startReadLoop (peerId : String) (stream : Nat) : AnnouncingAdapter :=
  let started := { t with adapter := { t.adapter with
    readLoops := update t.adapter.readLoops peerId true } }
  if t.adapter.running then
    { started with adapter := started.adapter.await (.readLoop peerId stream) }
  else started.endReadLoop peerId stream

def announce (peerId : String) (stream : Nat) : AnnouncingAdapter :=
  if !t.adapter.running then t
  else if t.adapter.streams peerId = some stream then t.emit (.candidate peerId)
  else t

def setStream (peerId : String) : AnnouncingAdapter :=
  { t with
    adapter := NetworkAdapter.clearReconnectState { t.adapter with
      streams := update t.adapter.streams peerId (some t.adapter.nextStream)
      nextStream := t.adapter.nextStream + 1 } peerId
    keys := t.keys.insert peerId }

def registerStream (peerId : String) : AnnouncingAdapter :=
  let stream := t.adapter.nextStream
  let replaces := (t.adapter.streams peerId).isSome && t.adapter.running
  let told := if replaces then t.emit (.disconnected peerId) else t
  let registered := (told.setStream peerId).startReadLoop peerId stream
  if replaces then { registered with announcing := (peerId, stream) :: registered.announcing }
  else registered.announce peerId stream

def emitAll : AnnouncingAdapter := t.keys.foldl (fun t peerId => t.emit (.disconnected peerId)) t

def forgetPeer (nodeId : String) : AnnouncingAdapter :=
  removePeer { t with adapter := NetworkAdapter.clearReconnectState { t.adapter with
    intendedPeers := t.adapter.intendedPeers.filter (· ≠ nodeId)
    failedPeers := t.adapter.failedPeers.filter (· ≠ nodeId) } nodeId } nodeId

def stop : AnnouncingAdapter :=
  if t.adapter.stopped || t.adapter.disconnected then t
  else { t.emitAll with adapter := t.adapter.stop, keys := [] }

def disconnect : AnnouncingAdapter :=
  { t.emitAll with adapter := t.adapter.disconnect, keys := [] }

def resume (ok : Bool) : Call → AnnouncingAdapter
  | .addPeerDial nodeId attempt =>
    if ok then t.registerStream nodeId
    else { t with adapter := t.adapter.resume ok (.addPeerDial nodeId attempt) }
  | .attemptReconnectDial peerId =>
    if ok then t.registerStream peerId
    else { t with adapter := t.adapter.resume ok (.attemptReconnectDial peerId) }
  | .readLoop peerId stream =>
    if ok && t.adapter.readLoops peerId && t.adapter.running then
      { t with adapter := t.adapter.await (.readLoop peerId stream) }
    else t.endReadLoop peerId stream
  | call => { t with adapter := t.adapter.resume ok call }

def settle (i : Nat) (ok : Bool) : AnnouncingAdapter :=
  match t.adapter.calls[i]? with
  | none => t
  | some call =>
    resume { t with adapter := { t.adapter with calls := t.adapter.calls.eraseIdx i } } ok call

def fireAnnouncement (peerId : String) (stream : Nat) : AnnouncingAdapter :=
  if (peerId, stream) ∈ t.announcing then
    announce { t with announcing := t.announcing.filter (· ≠ (peerId, stream)) } peerId stream
  else t

def step : AnnouncingStep → AnnouncingAdapter → AnnouncingAdapter
  | .announce peerId stream, t => t.fireAnnouncement peerId stream
  | .adapter (.forgetPeer nodeId), t => t.forgetPeer nodeId
  | .adapter .stop, t => t.stop
  | .adapter .disconnect, t => t.disconnect
  | .adapter (.inbound peerId), t => t.registerStream peerId
  | .adapter (.writeFailed peerId), t => t.removePeer peerId
  | .adapter (.settle i ok), t => t.settle i ok
  | .adapter op, t => { t with adapter := t.adapter.step op }

/-! The announcing adapter steps as the adapter does. -/

variable {t}

@[simp] theorem removePeer_adapter (p : String) :
    (t.removePeer p).adapter = t.adapter.removePeer p := by
  unfold removePeer
  split <;> rfl

@[simp] theorem endReadLoop_adapter (p : String) (stream : Nat) :
    (t.endReadLoop p stream).adapter = t.adapter.endReadLoop p stream := by
  unfold endReadLoop NetworkAdapter.endReadLoop
  split
  · exact removePeer_adapter p
  · rfl

@[simp] theorem startReadLoop_adapter (p : String) (stream : Nat) :
    (t.startReadLoop p stream).adapter = t.adapter.startReadLoop p stream := by
  unfold startReadLoop NetworkAdapter.startReadLoop
  dsimp only
  split
  · rfl
  · exact endReadLoop_adapter p stream

@[simp] theorem announce_adapter (p : String) (stream : Nat) :
    (t.announce p stream).adapter = t.adapter := by
  unfold announce
  split
  · rfl
  · split <;> rfl

@[simp] theorem registerStream_adapter (p : String) :
    (t.registerStream p).adapter = t.adapter.registerStream p := by
  unfold registerStream NetworkAdapter.registerStream
  dsimp only
  split
  · exact startReadLoop_adapter p _
  · rw [announce_adapter, startReadLoop_adapter]
    rfl

end AnnouncingAdapter

/-! What a step is to one peer. -/

/-- What there is of one peer: whether the transport runs, the stream of the peer, the number that
the next stream gets, the streams of the peer whose announcement waits, and what the repo was told
of the peer, newest first. -/
structure PeerView where
  running : Bool
  stream : Option Nat
  nextStream : Nat
  announcing : Nat → Prop
  said : List PeerEvent

namespace PeerView

inductive Change (p : String) : PeerView → PeerView → Prop
  | elsewhere (v : PeerView) {n : Nat} (later : v.nextStream ≤ n) :
      Change p v { v with nextStream := n }
  | started (v : PeerView) (closed : v.stream = none) : Change p v { v with running := true }
  | opened (v : PeerView) (runs : v.running = true) (closed : v.stream = none) :
      Change p v { v with
        stream := some v.nextStream
        nextStream := v.nextStream + 1
        said := .candidate p :: v.said }
  | replaced (v : PeerView) (runs : v.running = true) :
      Change p v { v with
        stream := some v.nextStream
        nextStream := v.nextStream + 1
        announcing := fun st => st = v.nextStream ∨ v.announcing st
        said := .disconnected p :: v.said }
  | closed (v : PeerView) : Change p v { v with
        stream := none
        said := .disconnected p :: v.said }
  | halted (v : PeerView) {times : Nat} (told : v.stream.isSome = true → 0 < times) :
      Change p v { v with
        running := false
        stream := none
        said := List.replicate times (.disconnected p) ++ v.said }
  | announced (v : PeerView) {stream : Nat} (waits : v.announcing stream) :
      Change p v { v with
        announcing := fun st => v.announcing st ∧ st ≠ stream
        said := if v.running && v.stream = some stream then .candidate p :: v.said else v.said }

/-- No two candidates of the peer without a disconnection between them. -/
def Alternates (p : String) (said : List PeerEvent) : Prop :=
  said.IsChain fun later earlier =>
    ¬ (later = PeerEvent.candidate p ∧ earlier = PeerEvent.candidate p)

/-- What the repo was told of the peer follows the stream of the peer. -/
structure Follows (p : String) (v : PeerView) : Prop where
  idle : v.running = false → v.stream = none
  streamOld : ∀ st, v.stream = some st → st < v.nextStream
  announcingOld : ∀ st, v.announcing st → st < v.nextStream
  gone : v.stream = none → v.said.head? ≠ some (.candidate p)
  waiting : ∀ st, v.stream = some st → v.announcing st → v.said.head? ≠ some (.candidate p)
  held : ∀ st, v.stream = some st → ¬ v.announcing st → v.said.head? = some (.candidate p)
  apart : Alternates p v.said

variable {p : String} {v v' : PeerView} {said : List PeerEvent}

theorem Alternates.disconnected (apart : Alternates p said) (times : Nat) :
    Alternates p (List.replicate times (.disconnected p) ++ said) := by
  induction times with
  | zero => exact apart
  | succ times ih => exact List.isChain_cons.mpr ⟨fun _ _ both => (nomatch both.1), ih⟩

theorem Alternates.candidate (apart : Alternates p said)
    (quiet : said.head? ≠ some (.candidate p)) : Alternates p (.candidate p :: said) := by
  refine List.isChain_cons.mpr ⟨?_, apart⟩
  intro earlier first both
  rw [both.2] at first
  exact quiet first

theorem head?_disconnected {times : Nat} (told : times = 0 → said.head? ≠ some (.candidate p)) :
    (List.replicate times (PeerEvent.disconnected p) ++ said).head? ≠ some (.candidate p) := by
  cases times with
  | zero => exact told rfl
  | succ times => exact fun first => (nomatch first)

theorem Change.follows (change : Change p v v') (follows : v.Follows p) : v'.Follows p := by
  obtain ⟨idle, streamOld, announcingOld, gone, waiting, held, apart⟩ := follows
  cases change with
  | elsewhere later =>
    exact ⟨idle, fun st has => (streamOld st has).trans_le later,
      fun st waits => (announcingOld st waits).trans_le later, gone, waiting, held, apart⟩
  | started closed =>
    exact ⟨fun _ => closed, streamOld, announcingOld, gone, waiting, held, apart⟩
  | opened runs closed =>
    constructor
    case idle => exact fun idle => absurd (runs.symm.trans idle) (by decide)
    case streamOld =>
      intro st has
      cases has
      exact Nat.lt_succ_self _
    case announcingOld => exact fun st waits => (announcingOld st waits).trans (Nat.lt_succ_self _)
    case gone => exact fun none => (by cases none)
    case waiting =>
      intro st has waits
      cases has
      exact absurd (announcingOld _ waits) (Nat.lt_irrefl _)
    case held => exact fun st has waits => rfl
    case apart => exact apart.candidate (gone closed)
  | replaced runs =>
    constructor
    case idle => exact fun idle => absurd (runs.symm.trans idle) (by decide)
    case streamOld =>
      intro st has
      cases has
      exact Nat.lt_succ_self _
    case announcingOld =>
      intro st waits
      obtain rfl | waits := waits
      · exact Nat.lt_succ_self _
      · exact (announcingOld st waits).trans (Nat.lt_succ_self _)
    case gone => exact fun none => (by cases none)
    case waiting => exact fun st has waits first => (by cases first)
    case held =>
      intro st has silent
      cases has
      exact absurd (.inl rfl) silent
    case apart => exact apart.disconnected 1
  | closed =>
    constructor
    case idle => exact fun _ => rfl
    case streamOld => exact fun st has => (by cases has)
    case announcingOld => exact announcingOld
    case gone => exact fun _ first => (by cases first)
    case waiting => exact fun st has => (by cases has)
    case held => exact fun st has => (by cases has)
    case apart => exact apart.disconnected 1
  | halted told =>
    constructor
    case idle => exact fun _ => rfl
    case streamOld => exact fun st has => (by cases has)
    case announcingOld => exact announcingOld
    case gone =>
      intro _
      apply head?_disconnected
      intro never
      apply gone
      cases stream : v.stream with
      | none => rfl
      | some st => exact absurd (told (by rw [stream]; rfl)) (by omega)
    case waiting => exact fun st has => (by cases has)
    case held => exact fun st has => (by cases has)
    case apart => exact apart.disconnected _
  | announced waits =>
    rename_i stream
    by_cases current : (v.running && v.stream = some stream) = true
    · have has : v.stream = some stream :=
        of_decide_eq_true (Bool.and_eq_true_iff.mp current).2
      rw [if_pos current]
      constructor
      case idle => exact idle
      case streamOld => exact streamOld
      case announcingOld => exact fun st still => announcingOld st still.1
      case gone => exact fun none => absurd (has.symm.trans none) (fun no => (by cases no))
      case waiting =>
        intro st same still
        exact absurd (Option.some.inj (same.symm.trans has)) still.2
      case held => exact fun _ _ _ => rfl
      case apart => exact apart.candidate (waiting stream has waits)
    · rw [if_neg current]
      have other : ∀ st, v.stream = some st → st ≠ stream := by
        intro st has same
        subst same
        have runs : v.running = true := by
          cases run : v.running with
          | true => rfl
          | false => exact absurd ((idle run).symm.trans has) (fun no => (by cases no))
        exact current (Bool.and_eq_true_iff.mpr ⟨runs, decide_eq_true has⟩)
      constructor
      case idle => exact idle
      case streamOld => exact streamOld
      case announcingOld => exact fun st still => announcingOld st still.1
      case gone => exact gone
      case waiting => exact fun st has still => waiting st has still.1
      case held =>
        intro st has silent
        exact held st has fun still => silent ⟨still, other st has⟩
      case apart => exact apart

end PeerView

namespace NetworkAdapter

structure Calm (s s' : NetworkAdapter) : Prop where
  streams : s'.streams = s.streams
  stopped : s'.stopped = s.stopped
  disconnected : s'.disconnected = s.disconnected
  nextStream : s'.nextStream = s.nextStream

variable {s s' t : NetworkAdapter}

theorem Calm.refl (s : NetworkAdapter) : Calm s s := ⟨rfl, rfl, rfl, rfl⟩

theorem Calm.trans (first : Calm s s') (second : Calm s' t) : Calm s t where
  streams := second.streams.trans first.streams
  stopped := second.stopped.trans first.stopped
  disconnected := second.disconnected.trans first.disconnected
  nextStream := second.nextStream.trans first.nextStream

theorem Calm.after (second : Calm s' t) (first : Calm s s') : Calm s t := first.trans second

theorem Calm.running (calm : Calm s s') : s'.running = s.running := by
  unfold NetworkAdapter.running
  rw [calm.stopped, calm.disconnected]

theorem scheduleReconnect_calm (p : String) : Calm s (s.scheduleReconnect p) := by
  unfold scheduleReconnect
  split
  · exact .refl s
  · split
    · exact .refl s
    · dsimp only
      split <;> exact ⟨rfl, rfl, rfl, rfl⟩

theorem addPeer_calm (p : String) : Calm s (s.addPeer p) := by
  unfold addPeer
  split
  · exact .refl s
  · dsimp only
    split
    · exact ⟨rfl, rfl, rfl, rfl⟩
    · split <;> exact ⟨rfl, rfl, rfl, rfl⟩

theorem foldl_calm {step : NetworkAdapter → String → NetworkAdapter}
    (calm : ∀ s p, Calm s (step s p)) (peers : List String) : Calm s (peers.foldl step s) := by
  induction peers generalizing s with
  | nil => exact .refl s
  | cons p rest ih => exact (calm s p).trans ih

theorem retryPeer_calm (p : String) : Calm s (s.retryPeer p) := by
  unfold retryPeer
  exact (scheduleReconnect_calm p).after ⟨rfl, rfl, rfl, rfl⟩

theorem retryFailedPeers_calm : Calm s s.retryFailedPeers := by
  unfold retryFailedPeers
  split
  · exact .refl s
  · exact (foldl_calm (fun _ => retryPeer_calm) s.failedPeers).after ⟨rfl, rfl, rfl, rfl⟩

theorem attemptReconnect_calm (p : String) : Calm s (s.attemptReconnect p) := by
  unfold attemptReconnect
  split
  · exact .refl s
  · split
    · exact ⟨rfl, rfl, rfl, rfl⟩
    · split <;> exact ⟨rfl, rfl, rfl, rfl⟩

theorem fireTimer_calm (p : String) : Calm s (s.fireTimer p) := by
  unfold fireTimer
  split
  · exact (attemptReconnect_calm p).after ⟨rfl, rfl, rfl, rfl⟩
  · exact .refl s

theorem removePeer_calm (p : String) :
    Calm { s with streams := update s.streams p none } (s.removePeer p) := by
  unfold removePeer
  dsimp only
  split
  · exact (scheduleReconnect_calm p).after ⟨rfl, rfl, rfl, rfl⟩
  · exact ⟨rfl, rfl, rfl, rfl⟩

theorem startReadLoop_calm {p : String} {stream : Nat} (current : s.streams p = some stream) :
    Calm { s with streams := update s.streams p (if s.running then some stream else none) }
      (s.startReadLoop p stream) := by
  unfold startReadLoop
  cases run : s.running with
  | true => exact ⟨(update_eq_self_iff.mpr current.symm).symm, rfl, rfl, rfl⟩
  | false =>
    unfold endReadLoop
    rw [if_neg Bool.false_ne_true, if_neg Bool.false_ne_true, if_pos current]
    exact (removePeer_calm p).after ⟨rfl, rfl, rfl, rfl⟩

theorem registerStream_calm (p : String) :
    Calm { s with
      streams := update s.streams p (if s.running then some s.nextStream else none)
      nextStream := s.nextStream + 1 } (s.registerStream p) := by
  unfold registerStream
  refine (startReadLoop_calm (by exact update_self p _ s.streams)).after ⟨?_, rfl, rfl, rfl⟩
  exact Function.update_idem _ _ _

theorem resume_calm (ok : Bool) (call : Call)
    (dials : ok = true → ∀ p n, call ≠ .addPeerDial p n ∧ call ≠ .attemptReconnectDial p)
    (reads : ∀ p st, call ≠ .readLoop p st) : Calm s (s.resume ok call) := by
  unfold resume
  cases call with
  | addPeerNode nodeId fetching =>
    dsimp only
    split <;> exact ⟨rfl, rfl, rfl, rfl⟩
  | addPeerDial nodeId attempt =>
    cases ok with
    | false =>
      show Calm s (if attempt < maxDials then s.await (.addPeerPause nodeId attempt) else s)
      split <;> exact ⟨rfl, rfl, rfl, rfl⟩
    | true => exact absurd rfl (dials rfl nodeId attempt).1
  | addPeerPause nodeId attempt => exact ⟨rfl, rfl, rfl, rfl⟩
  | attemptReconnectNode peerId fetching =>
    dsimp only
    split
    · exact ⟨rfl, rfl, rfl, rfl⟩
    · exact scheduleReconnect_calm peerId
  | attemptReconnectDial peerId =>
    cases ok with
    | false => exact scheduleReconnect_calm peerId
    | true => exact absurd rfl (dials rfl peerId 0).2
  | restart fetching =>
    dsimp only
    split
    · exact (foldl_calm (fun _ => addPeer_calm) s.intendedPeers).after ⟨rfl, rfl, rfl, rfl⟩
    · exact .refl s
  | readLoop peerId stream => exact absurd rfl (reads peerId stream)

end NetworkAdapter

namespace AnnouncingAdapter
open NetworkAdapter PeerView

variable {t t' : AnnouncingAdapter} {p q : String}

def said (t : AnnouncingAdapter) (p : String) : List PeerEvent := t.events.filter (·.peerId = p)

def view (t : AnnouncingAdapter) (p : String) : PeerView where
  running := t.adapter.running
  stream := t.adapter.streams p
  nextStream := t.adapter.nextStream
  announcing st := (p, st) ∈ t.announcing
  said := t.said p

/-- The keys are the peers with a stream, and what the repo was told follows each of them. -/
structure Told (t : AnnouncingAdapter) : Prop where
  keys : ∀ p, p ∈ t.keys ↔ (t.adapter.streams p).isSome = true
  follows : ∀ p, (t.view p).Follows p

theorem Told.change (told : t.Told)
    (keys : ∀ p, p ∈ t'.keys ↔ (t'.adapter.streams p).isSome = true)
    (change : ∀ p, Change p (t.view p) (t'.view p)) : t'.Told :=
  ⟨keys, fun p => (change p).follows (told.follows p)⟩

theorem fresh_told : fresh.Told where
  keys p := ⟨fun member => (nomatch member), fun has => (nomatch has)⟩
  follows p := by
    constructor
    case idle => exact fun _ => rfl
    case streamOld => exact fun st has => (nomatch has)
    case announcingOld => exact fun st waits => (nomatch waits)
    case gone => exact fun _ first => (nomatch first)
    case waiting => exact fun st has => (nomatch has)
    case held => exact fun st has => (nomatch has)
    case apart => exact List.isChain_nil

theorem said_self (event : PeerEvent) :
    (t.emit event).said event.peerId = event :: t.said event.peerId :=
  List.filter_cons_of_pos (decide_eq_true rfl)

theorem said_other {event : PeerEvent} (other : event.peerId ≠ p) :
    (t.emit event).said p = t.said p :=
  List.filter_cons_of_neg (by rw [decide_eq_true_eq]; exact other)

theorem said_disconnected : (t.emit (.disconnected p)).said p = .disconnected p :: t.said p :=
  said_self (.disconnected p)

theorem emitAll_said (p : String) :
    t.emitAll.said p = List.replicate (t.keys.count p) (PeerEvent.disconnected p) ++ t.said p := by
  unfold emitAll
  induction t.keys generalizing t with
  | nil => rfl
  | cons q rest ih =>
    rw [List.foldl_cons, ih]
    by_cases same : q = p
    · subst same
      rw [said_disconnected, List.count_cons_self, List.replicate_succ', List.append_assoc]
      rfl
    · have other : (PeerEvent.disconnected q).peerId ≠ p := same
      rw [said_other other, List.count_cons_of_ne same]

@[simp] theorem emitAll_announcing : t.emitAll.announcing = t.announcing := by
  unfold emitAll
  induction t.keys generalizing t with
  | nil => rfl
  | cons peerId rest ih => exact ih

theorem Told.calm (told : t.Told) {s : NetworkAdapter} (calm : Calm t.adapter s) :
    Told { t with adapter := s } := by
  apply told.change
  · intro p
    show p ∈ t.keys ↔ (s.streams p).isSome = true
    rw [calm.streams]
    exact told.keys p
  · intro p
    have same : view { t with adapter := s } p = t.view p := by
      show PeerView.mk s.running (s.streams p) s.nextStream _ _ = _
      rw [calm.running, calm.streams, calm.nextStream]
      rfl
    rw [same]
    exact .elsewhere (t.view p) le_rfl

theorem Told.idle (told : t.Told) (idle : t.adapter.running = false) (p : String) :
    t.adapter.streams p = none := (told.follows p).idle idle

theorem removePeer_keys (q : String) : (t.removePeer q).keys = t.keys.filter (· ≠ q) := by
  unfold removePeer
  split <;> rfl

theorem removePeer_events (q : String) : (t.removePeer q).events =
    if t.adapter.running then .disconnected q :: t.events else t.events := by
  unfold removePeer
  split <;> rfl

theorem removePeer_view (q : String) : (t.removePeer q).view p = { t.view p with
    stream := update t.adapter.streams q none p
    said := if t.adapter.running then (t.emit (.disconnected q)).said p else t.said p } := by
  have calm := @removePeer_calm t.adapter q
  have said : (t.removePeer q).said p =
      if t.adapter.running then (t.emit (.disconnected q)).said p else t.said p := by
    unfold AnnouncingAdapter.said
    rw [removePeer_events]
    split <;> rfl
  have announcing : (t.removePeer q).announcing = t.announcing := by
    unfold removePeer
    split <;> rfl
  unfold view
  rw [said, announcing, removePeer_adapter, calm.running, calm.streams, calm.nextStream]
  rfl

theorem removePeer_told (told : t.Told) (q : String) : (t.removePeer q).Told := by
  apply told.change
  · intro p
    have stream : (t.removePeer q).adapter.streams p = update t.adapter.streams q none p :=
      congrArg PeerView.stream (removePeer_view q)
    rw [removePeer_keys, stream, List.mem_filter, told.keys p]
    by_cases same : p = q
    · subst same
      rw [update_self]
      simp
    · rw [update_of_ne same]
      simp [same]
  · intro p
    rw [removePeer_view]
    by_cases same : p = q
    · subst same
      rw [update_self]
      cases run : t.adapter.running with
      | true =>
        rw [if_pos rfl, said_disconnected]
        exact .closed (t.view p)
      | false =>
        rw [if_neg Bool.false_ne_true, ← told.idle run p]
        exact .elsewhere (t.view p) le_rfl
    · have other : (PeerEvent.disconnected q).peerId ≠ p := Ne.symm same
      rw [update_of_ne same, said_other other, ite_self]
      exact .elsewhere (t.view p) le_rfl

theorem endReadLoop_told (told : t.Told) (q : String) (stream : Nat) :
    (t.endReadLoop q stream).Told := by
  unfold endReadLoop
  split
  · exact removePeer_told told q
  · exact told

theorem startReadLoop_idle {stream : Nat} (idle : t.adapter.running = false)
    (current : t.adapter.streams q = some stream) :
    (t.startReadLoop q stream).events = t.events ∧
      (t.startReadLoop q stream).announcing = t.announcing ∧
      (t.startReadLoop q stream).keys = t.keys.filter (· ≠ q) := by
  unfold startReadLoop endReadLoop removePeer
  rw [idle, if_neg Bool.false_ne_true, if_pos (by exact current)]
  dsimp only
  rw [if_neg (by exact fun runs => absurd (runs.symm.trans idle) (by decide))]
  exact ⟨rfl, rfl, rfl⟩

theorem startReadLoop_runs {stream : Nat} (runs : t.adapter.running = true) :
    (t.startReadLoop q stream).events = t.events ∧
      (t.startReadLoop q stream).announcing = t.announcing ∧
      (t.startReadLoop q stream).keys = t.keys := by
  unfold startReadLoop
  rw [if_pos runs]
  exact ⟨rfl, rfl, rfl⟩

theorem announce_idle {stream : Nat} (idle : t.adapter.running = false) :
    t.announce q stream = t := by
  unfold announce
  rw [idle]
  rfl

theorem announce_runs {stream : Nat} (runs : t.adapter.running = true)
    (current : t.adapter.streams q = some stream) :
    t.announce q stream = t.emit (.candidate q) := by
  unfold announce
  rw [runs, if_neg (by decide), if_pos current]

theorem registerStream_idle (idle : t.adapter.running = false) :
    (t.registerStream q).events = t.events ∧ (t.registerStream q).announcing = t.announcing ∧
      (t.registerStream q).keys = (t.keys.insert q).filter (· ≠ q) := by
  have set : (t.setStream q).adapter.streams q = some t.adapter.nextStream := update_self q _ _
  have still : ((t.setStream q).startReadLoop q t.adapter.nextStream).adapter.running = false := by
    rw [startReadLoop_adapter, (startReadLoop_calm set).running]
    exact idle
  unfold registerStream
  dsimp only
  rw [idle, Bool.and_false, if_neg Bool.false_ne_true, if_neg Bool.false_ne_true,
    announce_idle still]
  exact startReadLoop_idle idle set

theorem registerStream_replaces (runs : t.adapter.running = true)
    (existing : (t.adapter.streams q).isSome = true) :
    (t.registerStream q).events = .disconnected q :: t.events ∧
      (t.registerStream q).announcing = (q, t.adapter.nextStream) :: t.announcing ∧
      (t.registerStream q).keys = t.keys.insert q := by
  have begun : ((t.emit (.disconnected q)).setStream q).adapter.running = true := runs
  obtain ⟨events, announcing, keys⟩ := @startReadLoop_runs _ q t.adapter.nextStream begun
  unfold registerStream
  dsimp only
  rw [runs, existing, Bool.and_true, if_pos rfl, if_pos rfl]
  exact ⟨events, congrArg _ announcing, keys⟩

theorem registerStream_opens (runs : t.adapter.running = true)
    (free : (t.adapter.streams q).isSome = false) :
    (t.registerStream q).events = .candidate q :: t.events ∧
      (t.registerStream q).announcing = t.announcing ∧
      (t.registerStream q).keys = t.keys.insert q := by
  have set : (t.setStream q).adapter.streams q = some t.adapter.nextStream := update_self q _ _
  have begun : (t.setStream q).adapter.running = true := runs
  obtain ⟨events, announcing, keys⟩ := @startReadLoop_runs _ q t.adapter.nextStream begun
  have calm := startReadLoop_calm set
  have current : ((t.setStream q).startReadLoop q t.adapter.nextStream).adapter.streams q =
      some t.adapter.nextStream := by
    rw [startReadLoop_adapter, calm.streams, begun]
    exact update_self q _ _
  have still : ((t.setStream q).startReadLoop q t.adapter.nextStream).adapter.running = true := by
    rw [startReadLoop_adapter, calm.running]
    exact begun
  unfold registerStream
  dsimp only
  rw [free, Bool.false_and, if_neg Bool.false_ne_true, if_neg Bool.false_ne_true,
    announce_runs still current]
  exact ⟨congrArg _ events, announcing, keys⟩

theorem registerStream_view (q : String) : (t.registerStream q).view p =
    ⟨t.adapter.running,
      update t.adapter.streams q
        (if t.adapter.running then some t.adapter.nextStream else none) p,
      t.adapter.nextStream + 1, fun st => (p, st) ∈ (t.registerStream q).announcing,
      (t.registerStream q).events.filter (·.peerId = p)⟩ := by
  have calm := @registerStream_calm t.adapter q
  unfold view said
  rw [registerStream_adapter, calm.running, calm.streams, calm.nextStream]
  rfl

theorem registerStream_keyed (told : t.Told) (p q : String) :
    p ∈ (t.registerStream q).keys ↔
      ((t.registerStream q).adapter.streams p).isSome = true := by
  have stream : (t.registerStream q).adapter.streams p = update t.adapter.streams q
      (if t.adapter.running then some t.adapter.nextStream else none) p :=
    congrArg PeerView.stream (registerStream_view q)
  rw [stream]
  cases run : t.adapter.running with
  | false =>
    rw [(registerStream_idle run).2.2, List.mem_filter, List.mem_insert_iff, told.keys p]
    by_cases same : p = q
    · subst same
      rw [update_self]
      simp
    · rw [update_of_ne same]
      simp [same]
  | true =>
    have keys : (t.registerStream q).keys = t.keys.insert q := by
      cases existing : (t.adapter.streams q).isSome with
      | true => exact (registerStream_replaces run existing).2.2
      | false => exact (registerStream_opens run existing).2.2
    rw [keys, List.mem_insert_iff, told.keys p]
    by_cases same : p = q
    · subst same
      rw [update_self]
      simp
    · rw [update_of_ne same]
      simp [same]

theorem registerStream_told (told : t.Told) (q : String) : (t.registerStream q).Told := by
  refine told.change (fun p => registerStream_keyed told p q) ?_
  intro p
  rw [registerStream_view]
  cases run : t.adapter.running with
  | false =>
    obtain ⟨events, announcing, -⟩ := @registerStream_idle t q run
    have stream : update t.adapter.streams q none p = t.adapter.streams p := by
      by_cases same : p = q
      · rw [same, update_self, told.idle run q]
      · exact update_of_ne same _ _
    rw [events, announcing, if_neg Bool.false_ne_true, stream, ← run]
    exact .elsewhere (t.view p) (Nat.le_succ _)
  | true =>
    rw [if_pos rfl]
    cases existing : (t.adapter.streams q).isSome with
    | true =>
      obtain ⟨events, announcing, -⟩ := registerStream_replaces run existing
      rw [events, announcing]
      by_cases same : p = q
      · subst same
        have said : (PeerEvent.disconnected p :: t.events).filter (·.peerId = p) =
          .disconnected p :: t.said p := said_self (.disconnected p)
        have waits : (fun st => (p, st) ∈ (p, t.adapter.nextStream) :: t.announcing) =
            fun st => st = t.adapter.nextStream ∨ (p, st) ∈ t.announcing := by
          funext st
          rw [List.mem_cons, Prod.mk.injEq, eq_self, true_and]
        rw [update_self, said, waits, ← run]
        exact .replaced (t.view p) run
      · have said : (PeerEvent.disconnected q :: t.events).filter (·.peerId = p) = t.said p :=
          @said_other t p (.disconnected q) (Ne.symm same)
        have waits : (fun st => (p, st) ∈ (q, t.adapter.nextStream) :: t.announcing) =
            fun st => (p, st) ∈ t.announcing := by
          funext st
          rw [List.mem_cons, Prod.mk.injEq, eq_false same, false_and, false_or]
        rw [update_of_ne same, said, waits, ← run]
        exact .elsewhere (t.view p) (Nat.le_succ _)
    | false =>
      obtain ⟨events, announcing, -⟩ := registerStream_opens run existing
      rw [events, announcing]
      by_cases same : p = q
      · subst same
        have said : (PeerEvent.candidate p :: t.events).filter (·.peerId = p) =
          .candidate p :: t.said p := said_self (.candidate p)
        have closed : t.adapter.streams p = none := by
          rw [← Option.isNone_iff_eq_none, ← Option.not_isSome, existing]
          rfl
        rw [update_self, said, ← run]
        exact .opened (t.view p) run closed
      · have said : (PeerEvent.candidate q :: t.events).filter (·.peerId = p) = t.said p :=
          @said_other t p (.candidate q) (Ne.symm same)
        rw [update_of_ne same, said, ← run]
        exact .elsewhere (t.view p) (Nat.le_succ _)

theorem halt_told (told : t.Told) {s : NetworkAdapter} (idle : s.running = false)
    (streams : ∀ p, s.streams p = none) (nextStream : s.nextStream = t.adapter.nextStream) :
    Told { t.emitAll with adapter := s, keys := [] } := by
  apply told.change
  · intro p
    show p ∈ [] ↔ (s.streams p).isSome = true
    rw [streams p]
    exact ⟨fun member => (nomatch member), fun has => (nomatch has)⟩
  · intro p
    have seen : view { t.emitAll with adapter := s, keys := [] } p = { t.view p with
        running := false
        stream := none
        said := List.replicate (t.keys.count p) (PeerEvent.disconnected p) ++ t.said p } := by
      show PeerView.mk s.running (s.streams p) s.nextStream
        (fun st => (p, st) ∈ t.emitAll.announcing) (t.emitAll.said p) = _
      rw [idle, streams p, nextStream, emitAll_said, emitAll_announcing]
      rfl
    rw [seen]
    exact .halted (t.view p) fun has => List.count_pos_iff.mpr ((told.keys p).mpr has)

theorem stop_told (told : t.Told) : t.stop.Told := by
  unfold stop
  split
  · exact told
  · rename_i live
    have stopped : t.adapter.stop.stopped = true ∧ ∀ p, t.adapter.stop.streams p = none := by
      unfold NetworkAdapter.stop
      rw [if_neg live]
      exact ⟨rfl, fun _ => rfl⟩
    apply halt_told told _ stopped.2
    · unfold NetworkAdapter.stop
      split <;> rfl
    · unfold NetworkAdapter.running
      rw [stopped.1]
      rfl

theorem disconnect_told (told : t.Told) : t.disconnect.Told := by
  have idle : t.adapter.disconnect.running = false := Bool.and_false _
  exact halt_told told idle (fun _ => rfl) rfl

theorem restart_told (told : t.Told) : Told { t with adapter := t.adapter.restart } := by
  unfold NetworkAdapter.restart
  split
  · exact told
  · rename_i off
    rw [Bool.or_eq_true, Bool.not_eq_true', not_or, Bool.not_eq_false, Bool.not_eq_true] at off
    have idle : t.adapter.running = false := by
      unfold NetworkAdapter.running
      rw [off.1]
      rfl
    refine told.change (fun p => told.keys p) fun p => ?_
    have started : (!false && !t.adapter.disconnected) = true := by
      rw [off.2]
      rfl
    show Change p (t.view p) (PeerView.mk (!false && !t.adapter.disconnected) _ _ _ _)
    rw [started]
    exact .started (t.view p) (told.idle idle p)

theorem announce_view (q : String) (stream : Nat) : (t.announce q stream).view p = { t.view p with
    said := if t.adapter.running && t.adapter.streams q = some stream then
        (t.emit (.candidate q)).said p
      else t.said p } := by
  unfold announce
  cases run : t.adapter.running with
  | false => rfl
  | true =>
    by_cases current : t.adapter.streams q = some stream
    · rw [if_neg (by decide), if_pos current, decide_eq_true current, Bool.and_self, if_pos rfl]
      rfl
    · rw [if_neg (by decide), if_neg current, decide_eq_false current, Bool.and_false,
        if_neg Bool.false_ne_true]
      rfl

theorem announce_keys (q : String) (stream : Nat) : (t.announce q stream).keys = t.keys := by
  unfold announce
  split
  · rfl
  · split <;> rfl

theorem fireAnnouncement_told (told : t.Told) (q : String) (stream : Nat) :
    (t.fireAnnouncement q stream).Told := by
  unfold fireAnnouncement
  split
  · rename_i waits
    apply told.change
    · intro p
      rw [announce_keys, announce_adapter]
      exact told.keys p
    · intro p
      rw [announce_view]
      have left : (fun st => (p, st) ∈ t.announcing.filter (· ≠ (q, stream))) =
          fun st => (p, st) ∈ t.announcing ∧ (p, st) ≠ (q, stream) := by
        funext st
        rw [List.mem_filter, decide_eq_true_eq]
      show Change p (t.view p) ⟨_, _, _,
        fun st => (p, st) ∈ t.announcing.filter (· ≠ (q, stream)), _⟩
      rw [left]
      by_cases same : p = q
      · subst same
        have own : (fun st => (p, st) ∈ t.announcing ∧ (p, st) ≠ (p, stream)) =
            fun st => (p, st) ∈ t.announcing ∧ st ≠ stream := by
          funext st
          rw [ne_eq, Prod.mk.injEq, eq_self, true_and]
        rw [own]
        have told : (t.emit (.candidate p)).said p = .candidate p :: t.said p :=
          said_self (.candidate p)
        show Change p (t.view p)
          ⟨_, _, _, _, if _ then (t.emit (.candidate p)).said p else t.said p⟩
        rw [told]
        exact .announced (t.view p) waits
      · have others : (fun st => (p, st) ∈ t.announcing ∧ (p, st) ≠ (q, stream)) =
            fun st => (p, st) ∈ t.announcing := by
          funext st
          rw [ne_eq, Prod.mk.injEq, eq_false same, false_and, not_false_eq_true, and_true]
        rw [others]
        have other : (PeerEvent.candidate q).peerId ≠ p := Ne.symm same
        show Change p (t.view p)
          ⟨_, _, _, _, if _ then (t.emit (.candidate q)).said p else t.said p⟩
        rw [said_other other, ite_self]
        exact .elsewhere (t.view p) le_rfl
  · exact told

theorem forgetPeer_told (told : t.Told) (q : String) : (t.forgetPeer q).Told := by
  apply removePeer_told
  apply told.calm
  exact ⟨rfl, rfl, rfl, rfl⟩

theorem resume_told (told : t.Told) (ok : Bool) (call : Call) : (t.resume ok call).Told := by
  cases call with
  | addPeerDial nodeId attempt =>
    cases ok with
    | true => exact registerStream_told told nodeId
    | false =>
      apply told.calm
      apply resume_calm
      · exact fun failed => absurd failed Bool.false_ne_true
      · exact fun _ _ same => (nomatch same)
  | attemptReconnectDial peerId =>
    cases ok with
    | true => exact registerStream_told told peerId
    | false =>
      apply told.calm
      apply resume_calm
      · exact fun failed => absurd failed Bool.false_ne_true
      · exact fun _ _ same => (nomatch same)
  | readLoop peerId stream =>
    unfold resume
    dsimp only
    split
    · exact told.calm ⟨rfl, rfl, rfl, rfl⟩
    · exact endReadLoop_told told peerId stream
  | _ =>
    apply told.calm
    apply resume_calm
    · exact fun _ _ _ => ⟨fun same => (nomatch same), fun same => (nomatch same)⟩
    · exact fun _ _ same => (nomatch same)

theorem step_told (op : AnnouncingStep) (t : AnnouncingAdapter) (told : t.Told) :
    (t.step op).Told := by
  cases op with
  | announce peerId stream => exact fireAnnouncement_told told peerId stream
  | adapter op =>
    cases op with
    | addPeer nodeId => exact told.calm (addPeer_calm nodeId)
    | forgetPeer nodeId => exact forgetPeer_told told nodeId
    | retryFailedPeers => exact told.calm retryFailedPeers_calm
    | stop => exact stop_told told
    | restart => exact restart_told told
    | disconnect => exact disconnect_told told
    | nodeStarted => exact told.calm ⟨rfl, rfl, rfl, rfl⟩
    | inbound peerId => exact registerStream_told told peerId
    | writeFailed peerId => exact removePeer_told told peerId
    | timer peerId => exact told.calm (fireTimer_calm peerId)
    | settle i ok =>
      show (t.settle i ok).Told
      unfold settle
      split
      · exact told
      · apply resume_told
        apply told.calm
        exact ⟨rfl, rfl, rfl, rfl⟩

/-- In every run the last the repo was told of a peer without a stream, if anything, is its
disconnection, and of a peer with one, once its announcement no longer waits, that it is a
candidate. It is never told twice in a row that a peer is a candidate. -/
theorem repo_follows_streams (ops : List AnnouncingStep) (p : String) :
    let t := runAll step ops fresh
    (t.adapter.streams p = none → t.said p = [] ∨ (t.said p).head? = some (.disconnected p)) ∧
      (∀ st, t.adapter.streams p = some st → (p, st) ∉ t.announcing →
        (t.said p).head? = some (.candidate p)) ∧
      Alternates p (t.said p) := by
  intro t
  have told : t.Told := runAll_keeps step_told ops fresh_told
  refine ⟨?_, (told.follows p).held, (told.follows p).apart⟩
  intro closed
  have quiet := (told.follows p).gone closed
  cases said : t.said p with
  | nil => exact .inl rfl
  | cons event earlier =>
    have own : event.peerId = p := by
      have member : event ∈ t.said p := said ▸ List.mem_cons_self
      exact of_decide_eq_true (List.mem_filter.mp member).2
    cases event with
    | candidate q =>
      have same : q = p := own
      subst same
      exact absurd (congrArg List.head? said) quiet
    | disconnected q =>
      have same : q = p := own
      exact .inr (by rw [same]; rfl)

end AnnouncingAdapter

end Tomb.Reliquary.Automerge
