import Tomb.Lib.Runs
import Tomb.Grimoire.Radio.Requests

/-! How long the requests of a station live: listeners that join and leave, the marks that they
spawn, and the calls on the queues, over time. -/
namespace Tomb.Grimoire.Radio
open Tomb.Lib

inductive Mark where
  | active (stationId : String)
  | idle (stationId : String)
  deriving DecidableEq

@[grind =] def Mark.station : Mark → String
  | .active stationId => stationId
  | .idle stationId => stationId

structure Stations where
  now : Nat
  listeners : String → Nat
  spawned : List Mark
  registry : Registry

inductive RadioOp where
  | tick (elapsed : Nat)
  | join (stationId : String)
  | leave (stationId : String)
  | runMark (mark : Mark)
  | submit (stationId id : String) (kind : RadioItemKind) (itemId requestedBy : String)
  | popNext (stationId : String)
  | list (stationId : String)
  | remove (stationId requestId : String)
  | reorder (stationId requestId : String) (newIndex : Nat)
  | clear (stationId : String)

namespace Stations

def join (stationId : String) (s : Stations) : Stations :=
  { s with
    listeners := Function.update s.listeners stationId (s.listeners stationId + 1)
    spawned := if s.listeners stationId = 0 then s.spawned ++ [.active stationId] else s.spawned }

def leave (stationId : String) (s : Stations) : Stations :=
  if s.listeners stationId = 0 then s
  else { s with
    listeners := Function.update s.listeners stationId (s.listeners stationId - 1)
    spawned := if s.listeners stationId = 1 then s.spawned ++ [.idle stationId] else s.spawned }

def runMark (mark : Mark) (s : Stations) : Stations :=
  if mark ∈ s.spawned then { s with
    spawned := s.spawned.erase mark
    registry := match mark with
      | .active stationId => Requests.markActive stationId s.registry
      | .idle stationId => Requests.markIdle s.now stationId s.registry }
  else s

@[grind =] def step : RadioOp → Stations → Stations
  | .tick elapsed, s => { s with now := s.now + elapsed }
  | .join stationId, s => s.join stationId
  | .leave stationId, s => s.leave stationId
  | .runMark mark, s => s.runMark mark
  | .submit stationId id kind itemId requestedBy, s =>
    { s with registry := Requests.submit stationId ⟨id, kind, itemId, requestedBy, s.now⟩ s.registry }
  | .popNext stationId, s => { s with registry := (Requests.popNext s.now stationId s.registry).2 }
  | .list stationId, s => { s with registry := (Requests.list s.now stationId s.registry).2 }
  | .remove stationId requestId, s =>
    { s with registry := (Requests.remove stationId requestId s.registry).2 }
  | .reorder stationId requestId newIndex, s =>
    { s with registry := (Requests.reorder stationId requestId newIndex s.registry).2 }
  | .clear stationId, s => { s with registry := (Requests.clear stationId s.registry).2 }

end Stations

/-- The stations as their users see them. `left` is when the last listener of a station left, if none
has come since; `owed` are the requests that were neither popped, removed nor cleared, and that have
not waited for the whole grace period without any listener. -/
structure Watched where
  stations : Stations
  left : String → Option Nat
  owed : String → List QueuedRequest

namespace Watched

/-- The request has waited for the grace period, and there was no listener all the while. -/
def waitedInVain (now listeners : Nat) (left : Option Nat) (r : QueuedRequest) : Bool :=
  listeners = 0 && max r.submittedAt (left.getD 0) + idleGrace ≤ now

@[grind =]
def noteLeft (op : RadioOp) (s : Stations) (left : String → Option Nat) : String → Option Nat :=
  match op with
  | .join stationId => Function.update left stationId none
  | .leave stationId =>
    if s.listeners stationId = 1 then Function.update left stationId (some s.now) else left
  | _ => left

@[grind =] def noteOwed (op : RadioOp) (s : Stations) (left : String → Option Nat)
    (owed : String → List QueuedRequest) : String → List QueuedRequest :=
  match op with
  | .tick elapsed => fun stationId => (owed stationId).filter fun r =>
      !waitedInVain (s.now + elapsed) (s.listeners stationId) (left stationId) r
  | .submit stationId id kind itemId requestedBy =>
    Function.update owed stationId (owed stationId ++ [⟨id, kind, itemId, requestedBy, s.now⟩])
  | .popNext stationId => Function.update owed stationId
    (match (Requests.popNext s.now stationId s.registry).1 with
    | some popped => (owed stationId).filter (·.id ≠ popped.id)
    | none => owed stationId)
  | .remove stationId requestId =>
    Function.update owed stationId ((owed stationId).filter (·.id ≠ requestId))
  | .clear stationId => Function.update owed stationId []
  | _ => owed

@[grind =] def step (op : RadioOp) (s : Watched) : Watched where
  stations := s.stations.step op
  left := noteLeft op s.stations s.left
  owed := noteOwed op s.stations s.left s.owed

def start (now : Nat) : Watched := ⟨⟨now, fun _ => 0, [], fun _ => none⟩, fun _ => none, fun _ => []⟩

def listed (s : Watched) (stationId : String) : List QueuedRequest :=
  (Requests.list s.stations.now stationId s.stations.registry).1

/-- What the requests of a station can rely on: those that are owed are listed; the next one is
popped from the head of the list; and a grace period after the last listener left, no request from
before is there. -/
structure Served (s : Watched) (stationId : String) : Prop where
  owed : ∀ r ∈ s.owed stationId, r ∈ s.listed stationId
  popped : (Requests.popNext s.stations.now stationId s.stations.registry).1 =
    (s.listed stationId).head?
  rest : (s.step (.popNext stationId)).listed stationId = (s.listed stationId).tail
  dropped : ∀ t, s.left stationId = some t → t + idleGrace ≤ s.stations.now →
    ∀ r ∈ s.listed stationId, t ≤ r.submittedAt

/-- A request comes to a queue that is older than the listeners there, or, without listeners, holds
no request from before the last one left. -/
def Welcome (q : Option StationQueue) (listeners : Nat) (left : Option Nat) : Prop :=
  match q with
  | none => listeners = 0
  | some q => listeners = 0 → ∀ r ∈ q.items, left.getD 0 ≤ r.submittedAt

instance : (q : Option StationQueue) → (listeners : Nat) → (left : Option Nat) →
    Decidable (Welcome q listeners left)
  | none, listeners, _ => inferInstanceAs (Decidable (listeners = 0))
  | some q, listeners, left =>
    inferInstanceAs (Decidable (listeners = 0 → ∀ r ∈ q.items, left.getD 0 ≤ r.submittedAt))

def Unmarked (s : Watched) (stationId : String) : Prop :=
  ∀ mark ∈ s.stations.spawned, mark.station ≠ stationId

instance (s : Watched) (stationId : String) : Decidable (s.Unmarked stationId) :=
  inferInstanceAs (Decidable (∀ mark ∈ s.stations.spawned, mark.station ≠ stationId))

/-- When an operation may happen: spawned marks run before time passes, and before their station
gets or loses a listener or gets a request; and a request is welcome. -/
def Timely : RadioOp → Watched → Prop
  | .tick _, s => s.stations.spawned = []
  | .join stationId, s => s.Unmarked stationId
  | .leave stationId, s => s.Unmarked stationId
  | .submit stationId _ _ _ _, s => s.Unmarked stationId ∧
    Welcome (s.stations.registry stationId) (s.stations.listeners stationId) (s.left stationId)
  | _, _ => True

instance : (op : RadioOp) → (s : Watched) → Decidable (Timely op s)
  | .tick _, s => inferInstanceAs (Decidable (s.stations.spawned = []))
  | .join stationId, s => inferInstanceAs (Decidable (s.Unmarked stationId))
  | .leave stationId, s => inferInstanceAs (Decidable (s.Unmarked stationId))
  | .submit stationId _ _ _ _, s => inferInstanceAs (Decidable (s.Unmarked stationId ∧
      Welcome (s.stations.registry stationId) (s.stations.listeners stationId) (s.left stationId)))
  | .runMark _, _ => .isTrue trivial
  | .popNext _, _ => .isTrue trivial
  | .list _, _ => .isTrue trivial
  | .remove _ _, _ => .isTrue trivial
  | .reorder _ _ _, _ => .isTrue trivial
  | .clear _, _ => .isTrue trivial

/-- How the queue of a station stands: whom it has heard, since when it is idle, and that it has
what is owed. -/
structure Tended (now listeners : Nat) (left : Option Nat) (owed : List QueuedRequest)
    (q : StationQueue) : Prop where
  kept : ∀ r ∈ owed, r ∈ q.items
  heard : 0 < listeners → q.idleSince = none ∧ q.hasEverHadListener = true
  silent : listeners = 0 → (q.idleSince = none ∧ ∀ r ∈ q.items, left.getD 0 ≤ r.submittedAt) ∨
    ∃ t, q.idleSince = some t ∧ q.hasEverHadListener = true ∧ left = some t ∧
      ∀ r ∈ q.items, r.submittedAt ≤ t
  past : ∀ r ∈ q.items, r.submittedAt ≤ now

structure Steady (now listeners : Nat) (left : Option Nat) (owed : List QueuedRequest)
    (q : Option StationQueue) : Prop where
  present : 0 < listeners → left = none
  before : left.getD 0 ≤ now
  fresh : listeners = 0 → ∀ r ∈ owed, now < max r.submittedAt (left.getD 0) + idleGrace
  missing : q = none → owed = []
  tended : ∀ found, q = some found → Tended now listeners left owed found

/-- A listener that came first, or left last, is marked as soon as time can pass. -/
inductive Marked (stationId : String) (now : Nat) (owed : List QueuedRequest)
    (q : Option StationQueue) : (listeners : Nat) → Option Nat → List Mark → Prop where
  | settled {listeners : Nat} {left : Option Nat} (steady : Steady now listeners left owed q) :
    Marked stationId now owed q listeners left []
  | came {listeners : Nat} {left : Option Nat} (steady : Steady now 0 left owed q) :
    Marked stationId now owed q (listeners + 1) none [.active stationId]
  | went (steady : Steady now 1 none owed q) :
    Marked stationId now owed q 0 (some now) [.idle stationId]

@[grind =] def marksOf (s : Stations) (stationId : String) : List Mark :=
  s.spawned.filter (·.station = stationId)

def Consistent (s : Watched) (stationId : String) : Prop :=
  Marked stationId s.stations.now (s.owed stationId) (s.stations.registry stationId)
    (s.stations.listeners stationId) (s.left stationId) (marksOf s.stations stationId)

section Queue

variable {now listeners : Nat} {left : Option Nat} {owed owed' : List QueuedRequest}
  {q : StationQueue} {station : Option StationQueue}

theorem idleGrace_pos : 0 < idleGrace := by decide

theorem Steady.expired (steady : Steady now listeners left owed (some q))
    (expired : (q.hasEverHadListener && q.isIdleExpired now) = true) : owed = [] := by
  obtain ⟨-, overdue⟩ := Bool.and_eq_true_iff.mp expired
  have tended := steady.tended q rfl
  unfold StationQueue.isIdleExpired at overdue
  cases idle : q.idleSince with
  | none =>
    rw [idle] at overdue
    cases overdue
  | some t =>
    rw [idle] at overdue
    have late : idleGrace ≤ now - t := of_decide_eq_true overdue
    have silent : listeners = 0 := by
      rcases Nat.eq_zero_or_pos listeners with none | some
      · exact none
      · rw [(tended.heard some).1] at idle
        cases idle
    rcases tended.silent silent with ⟨awake, -⟩ | ⟨since, same, -, rfl, older⟩
    · rw [awake] at idle
      cases idle
    · obtain rfl : since = t := Option.some.inj (same.symm.trans idle)
      refine List.eq_nil_iff_forall_not_mem.mpr fun r owes => ?_
      have waited := steady.fresh silent r owes
      have age := older r (tended.kept r owes)
      have grace := idleGrace_pos
      simp only [Option.getD_some] at waited
      omega

theorem Steady.swept (steady : Steady now listeners left owed (some q)) :
    ∀ r ∈ owed, r ∈ (q.sweepUnheard now).items := by
  intro r owes
  have tended := steady.tended q rfl
  have queued := tended.kept r owes
  unfold StationQueue.sweepUnheard
  split
  · exact queued
  · rename_i unheard
    have silent : listeners = 0 := by
      rcases Nat.eq_zero_or_pos listeners with none | some
      · exact none
      · exact absurd (tended.heard some).2 unheard
    have waited := steady.fresh silent r owes
    refine List.mem_filter.mpr ⟨queued, decide_eq_true ?_⟩
    rcases tended.silent silent with ⟨-, later⟩ | ⟨t, -, heard, -⟩
    · have since := later r queued
      have grace := idleGrace_pos
      omega
    · exact absurd heard unheard

theorem Steady.shrink (steady : Steady now listeners left owed (some q))
    {items : List QueuedRequest} (fewer : ∀ r ∈ items, r ∈ q.items)
    (owes : ∀ r ∈ owed', r ∈ owed) (kept : ∀ r ∈ owed', r ∈ items) :
    Steady now listeners left owed' (some { q with items }) where
  present := steady.present
  before := steady.before
  fresh silent r member := steady.fresh silent r (owes r member)
  missing gone := nomatch gone
  tended found same := by
    cases same
    have tended := steady.tended q rfl
    refine ⟨kept, tended.heard, fun silent => ?_, fun r member => tended.past r (fewer r member)⟩
    rcases tended.silent silent with ⟨awake, later⟩ | ⟨t, idle, heard, gone, older⟩
    · exact .inl ⟨awake, fun r member => later r (fewer r member)⟩
    · exact .inr ⟨t, idle, heard, gone, fun r member => older r (fewer r member)⟩

theorem Steady.drop (steady : Steady now listeners left owed station) :
    Steady now listeners left [] none where
  present := steady.present
  before := steady.before
  fresh _ _ member := nomatch member
  missing _ := rfl
  tended _ same := nomatch same

theorem Steady.tick (steady : Steady now listeners left owed station) (elapsed : Nat) :
    Steady (now + elapsed) listeners left
      (owed.filter fun r => !waitedInVain (now + elapsed) listeners left r) station where
  present := steady.present
  before := steady.before.trans (Nat.le_add_right _ _)
  fresh silent r member := by
    obtain ⟨-, waits⟩ := List.mem_filter.mp member
    simp only [waitedInVain, silent, decide_true, Bool.true_and, Bool.not_eq_true',
      decide_eq_false_iff_not, Nat.not_le] at waits
    exact waits
  missing gone := by
    rw [steady.missing gone]
    rfl
  tended found same := by
    have tended := steady.tended found same
    exact ⟨fun r member => tended.kept r (List.mem_filter.mp member).1, tended.heard,
      tended.silent, fun r member => (tended.past r member).trans (Nat.le_add_right _ _)⟩

theorem Steady.join (steady : Steady now (listeners + 1) left owed station) :
    Steady now (listeners + 2) none owed station where
  present _ := rfl
  before := Nat.zero_le _
  fresh silent := nomatch silent
  missing := steady.missing
  tended found same := by
    have tended := steady.tended found same
    exact ⟨tended.kept, fun _ => tended.heard (Nat.succ_pos _), fun silent => (nomatch silent),
      tended.past⟩

theorem Steady.leave (steady : Steady now (listeners + 2) left owed station) :
    Steady now (listeners + 1) left owed station where
  present _ := steady.present (Nat.succ_pos _)
  before := steady.before
  fresh silent := nomatch silent
  missing := steady.missing
  tended found same := by
    have tended := steady.tended found same
    exact ⟨tended.kept, fun _ => tended.heard (Nat.succ_pos _), fun silent => (nomatch silent),
      tended.past⟩

theorem Steady.markActive (steady : Steady now 0 left owed station) :
    Steady now (listeners + 1) none owed
      (station.map fun q => { q with idleSince := none, hasEverHadListener := true }) where
  present _ := rfl
  before := Nat.zero_le _
  fresh silent := nomatch silent
  missing gone := steady.missing (Option.map_eq_none_iff.mp gone)
  tended found same := by
    obtain ⟨q, known, rfl⟩ := Option.map_eq_some_iff.mp same
    have tended := steady.tended q known
    exact ⟨tended.kept, fun _ => ⟨rfl, rfl⟩, fun silent => (nomatch silent), tended.past⟩

theorem Steady.markIdle (steady : Steady now 1 none owed station) :
    Steady now 0 (some now) owed (station.map fun q =>
      if q.idleSince.isNone then { q with idleSince := some now } else q) where
  present busy := absurd busy (Nat.lt_irrefl _)
  before := Nat.le_refl _
  fresh _ r _ := by
    have grace := idleGrace_pos
    simp only [Option.getD_some]
    omega
  missing gone := steady.missing (Option.map_eq_none_iff.mp gone)
  tended found same := by
    obtain ⟨q, known, rfl⟩ := Option.map_eq_some_iff.mp same
    have tended := steady.tended q known
    obtain ⟨awake, heard⟩ := tended.heard Nat.one_pos
    rw [if_pos (Option.isNone_iff_eq_none.mpr awake)]
    refine ⟨tended.kept, fun busy => absurd busy (Nat.lt_irrefl _), fun _ => .inr ?_, tended.past⟩
    exact ⟨now, rfl, heard, rfl, tended.past⟩

theorem Steady.submit (steady : Steady now listeners left owed station)
    (welcome : Welcome station listeners left) {request : QueuedRequest}
    (submitted : request.submittedAt = now) :
    Steady now listeners left (owed ++ [request]) (some { station.getD .new with
      idleSince := none, items := (station.getD .new).items ++ [request] }) where
  present := steady.present
  before := steady.before
  fresh silent r member := by
    rcases List.mem_append.mp member with known | new
    · exact steady.fresh silent r known
    · obtain rfl := List.mem_singleton.mp new
      have grace := idleGrace_pos
      omega
  missing gone := nomatch gone
  tended found same := by
    cases same
    have before := steady.before
    cases station with
    | none =>
      obtain rfl : listeners = 0 := welcome
      refine ⟨fun r member => ?_, fun busy => absurd busy (Nat.lt_irrefl _),
        fun _ => .inl ⟨rfl, fun r member => ?_⟩, fun r member => ?_⟩
      · rw [steady.missing rfl] at member
        exact member
      · obtain rfl : r = request := List.mem_singleton.mp member
        omega
      · obtain rfl : r = request := List.mem_singleton.mp member
        omega
    | some q =>
      have tended := steady.tended q rfl
      refine ⟨fun r member => ?_, fun busy => ⟨rfl, (tended.heard busy).2⟩,
        fun silent => .inl ⟨rfl, fun r member => ?_⟩, fun r member => ?_⟩
      · rcases List.mem_append.mp member with known | new
        · exact List.mem_append_left _ (tended.kept r known)
        · exact List.mem_append_right _ new
      · rcases List.mem_append.mp member with known | new
        · exact welcome silent r known
        · obtain rfl := List.mem_singleton.mp new
          omega
      · rcases List.mem_append.mp member with known | new
        · exact tended.past r known
        · obtain rfl := List.mem_singleton.mp new
          omega

theorem Steady.sweep (steady : Steady now listeners left owed (some q)) :
    Steady now listeners left owed (some (q.sweepUnheard now)) := by
  rw [Requests.sweepUnheard_eq]
  exact steady.shrink (fun _ => Requests.mem_sweepUnheard) (fun _ owes => owes) steady.swept

variable {stationId : String} {reg : Registry}

theorem Steady.list (steady : Steady now listeners left owed station) (known : reg stationId = station) :
    Steady now listeners left owed ((Requests.list now stationId reg).2 stationId) := by
  cases station with
  | none =>
    simp only [Requests.list_missing known, known]
    exact steady
  | some q =>
    cases expired : q.hasEverHadListener && q.isIdleExpired now with
    | true =>
      simp only [Requests.list_expired known expired, Requests.update_self, steady.expired expired]
      exact steady.drop
    | false =>
      simp only [Requests.list_live known expired, Requests.update_self]
      exact steady.sweep

theorem Steady.popNext (steady : Steady now listeners left owed station) (known : reg stationId = station) :
    Steady now listeners left (match (Requests.popNext now stationId reg).1 with
      | some popped => owed.filter (·.id ≠ popped.id)
      | none => owed) ((Requests.popNext now stationId reg).2 stationId) := by
  cases station with
  | none =>
    simp only [Requests.popNext_missing known, known]
    exact steady
  | some q =>
    cases expired : q.hasEverHadListener && q.isIdleExpired now with
    | true =>
      simp only [Requests.popNext_expired known expired, Requests.update_self, steady.expired expired]
      exact steady.drop
    | false =>
      simp only [Requests.popNext_live known expired, Requests.update_self]
      have swept := steady.sweep
      have kept := steady.swept
      cases items : (q.sweepUnheard now).items with
      | nil =>
        refine swept.shrink (fun r member => nomatch member) (fun _ owes => owes) fun r owes => ?_
        rw [items] at kept
        exact kept r owes
      | cons popped rest =>
        rw [items] at kept
        refine swept.shrink (fun r member => ?_) (fun r owes => (List.mem_filter.mp owes).1)
          fun r owes => ?_
        · rw [items]
          exact List.mem_cons_of_mem _ member
        · obtain ⟨owes, other⟩ := List.mem_filter.mp owes
          rcases List.mem_cons.mp (kept r owes) with rfl | behind
          · simp at other
          · exact behind

theorem Steady.remove (steady : Steady now listeners left owed station) (known : reg stationId = station) (requestId : String) :
    Steady now listeners left (owed.filter (·.id ≠ requestId))
      ((Requests.remove stationId requestId reg).2 stationId) := by
  cases station with
  | none =>
    have nothing : owed = [] := steady.missing rfl
    simp only [Requests.remove, known, nothing]
    exact steady.drop
  | some q =>
    simp only [Requests.remove, known, Requests.update_self]
    refine steady.shrink (fun r member => (List.mem_filter.mp member).1)
      (fun r owes => (List.mem_filter.mp owes).1) fun r owes => ?_
    obtain ⟨owes, other⟩ := List.mem_filter.mp owes
    exact List.mem_filter.mpr ⟨(steady.tended q rfl).kept r owes, other⟩

theorem Steady.reorder (steady : Steady now listeners left owed station) (known : reg stationId = station) (requestId : String) (newIndex : Nat) :
    Steady now listeners left owed
      ((Requests.reorder stationId requestId newIndex reg).2 stationId) := by
  cases station with
  | none =>
    simp only [Requests.reorder, known]
    exact steady
  | some q =>
    cases lifted : Requests.lift requestId q.items with
    | none =>
      simp only [Requests.reorder, known, lifted]
      exact steady
    | some found =>
      obtain ⟨item, rest⟩ := found
      simp only [Requests.reorder, known, lifted, Requests.update_self]
      have same := Requests.reorder_mem lifted newIndex
      exact steady.shrink (fun r => (same r).mp) (fun _ owes => owes)
        fun r owes => (same r).mpr ((steady.tended q rfl).kept r owes)

theorem Steady.clear (steady : Steady now listeners left owed station) (known : reg stationId = station) :
    Steady now listeners left [] ((Requests.clear stationId reg).2 stationId) := by
  cases station with
  | none =>
    simp only [Requests.clear, known]
    exact steady.drop
  | some q =>
    simp only [Requests.clear, known, Requests.update_self]
    exact steady.shrink (fun r member => nomatch member) (fun r owes => nomatch owes)
      fun r owes => nomatch owes

end Queue

section Steps

variable {stationId : String} {now listeners : Nat} {left : Option Nat}
  {owed owed' : List QueuedRequest} {q q' : Option StationQueue} {marks : List Mark}

theorem Marked.steady (marked : Marked stationId now owed q listeners left []) :
    Steady now listeners left owed q := by
  cases marked with
  | settled steady => exact steady

/-- What keeps a queue steady keeps it so while a mark is on its way. -/
theorem Marked.map (marked : Marked stationId now owed q listeners left marks)
    (keeps : ∀ {listeners : Nat} {left : Option Nat}, Steady now listeners left owed q →
      Steady now listeners left owed' q') :
    Marked stationId now owed' q' listeners left marks := by
  cases marked with
  | settled steady => exact .settled (keeps steady)
  | came steady => exact .came (keeps steady)
  | went steady => exact .went (keeps steady)

def runOn (now : Nat) (q : StationQueue) : Mark → StationQueue
  | .active _ => { q with idleSince := none, hasEverHadListener := true }
  | .idle _ => if q.idleSince.isNone then { q with idleSince := some now } else q

theorem Marked.run (marked : Marked stationId now owed q listeners left marks) {mark : Mark}
    (spawned : mark ∈ marks) :
    Marked stationId now owed (q.map fun q => runOn now q mark) listeners left
      (marks.erase mark) := by
  cases marked with
  | settled steady => cases spawned
  | came steady =>
    obtain rfl := List.mem_singleton.mp spawned
    rw [List.erase_cons_head]
    exact .settled steady.markActive
  | went steady =>
    obtain rfl := List.mem_singleton.mp spawned
    rw [List.erase_cons_head]
    exact .settled steady.markIdle

theorem runMark_registry (mark : Mark) (s : Stations) (spawned : mark ∈ s.spawned) :
    (s.runMark mark).registry mark.station =
      (s.registry mark.station).map fun q => runOn s.now q mark := by
  unfold Stations.runMark
  rw [if_pos spawned]
  cases mark with
  | active stationId =>
    simp only [Requests.markActive, Mark.station, runOn]
    cases known : s.registry stationId <;> simp [known]
  | idle stationId =>
    simp only [Requests.markIdle, Mark.station, runOn]
    cases known : s.registry stationId with
    | none => simp [known]
    | some q =>
      cases idle : q.idleSince <;> simp [known, idle]

variable {s : Watched}

theorem Consistent.changeQueue (consistent : s.Consistent stationId) (reg : Registry)
    (owed' : String → List QueuedRequest)
    (keeps : ∀ {listeners : Nat} {left : Option Nat},
      Steady s.stations.now listeners left (s.owed stationId) (s.stations.registry stationId) →
      Steady s.stations.now listeners left (owed' stationId) (reg stationId)) :
    Consistent { s with stations := { s.stations with registry := reg }, owed := owed' }
      stationId :=
  Marked.map consistent keeps

theorem Consistent.elsewhere (consistent : s.Consistent stationId) {reg : Registry}
    {owed' : String → List QueuedRequest}
    (registry : reg stationId = s.stations.registry stationId)
    (owed : owed' stationId = s.owed stationId) :
    Consistent { s with stations := { s.stations with registry := reg }, owed := owed' }
      stationId := by
  unfold Consistent at consistent ⊢
  simp only [registry, owed]
  exact consistent

theorem Consistent.settled (consistent : s.Consistent stationId)
    (unmarked : s.Unmarked stationId) : Steady s.stations.now (s.stations.listeners stationId)
      (s.left stationId) (s.owed stationId) (s.stations.registry stationId) := by
  have none : marksOf s.stations stationId = [] :=
    List.filter_eq_nil_iff.mpr fun mark member => by simpa using unmarked mark member
  unfold Consistent at consistent
  rw [none] at consistent
  exact consistent.steady

theorem marksOf_unmarked (unmarked : s.Unmarked stationId) :
    marksOf s.stations stationId = [] :=
  List.filter_eq_nil_iff.mpr fun mark member => by simpa using unmarked mark member

theorem Consistent.join (consistent : s.Consistent stationId) (target : String)
    (unmarked : s.Unmarked target) : (s.step (.join target)).Consistent stationId := by
  unfold Consistent
  by_cases same : stationId = target
  · subst same
    have steady := consistent.settled unmarked
    have none := marksOf_unmarked unmarked
    simp only [Watched.step, Stations.step, Stations.join, noteLeft, noteOwed, marksOf,
      Function.update_self]
    cases count : s.stations.listeners stationId with
    | zero =>
      rw [count] at steady
      simp only [if_true, List.filter_append]
      rw [show s.stations.spawned.filter (fun mark => mark.station = stationId) = [] from none]
      simp only [Mark.station, decide_true, List.filter_cons_of_pos, List.filter_nil,
        List.nil_append]
      exact .came steady
    | succ n =>
      rw [count] at steady
      simp only [Nat.succ_ne_zero, if_false]
      rw [show s.stations.spawned.filter (fun mark => mark.station = stationId) = [] from none]
      exact .settled steady.join
  · have marks : marksOf (s.stations.join target) stationId = marksOf s.stations stationId := by
      unfold marksOf Stations.join
      split
      · simp [Mark.station, Ne.symm same]
      · rfl
    simp only [Watched.step, Stations.step, noteLeft, noteOwed, marks, Function.update_of_ne same]
    simp only [Stations.join, Function.update_of_ne same]
    exact consistent

theorem Consistent.leave (consistent : s.Consistent stationId) (target : String)
    (unmarked : s.Unmarked target) : (s.step (.leave target)).Consistent stationId := by
  unfold Consistent
  by_cases same : stationId = target
  · subst same
    have steady := consistent.settled unmarked
    have none := marksOf_unmarked unmarked
    cases count : s.stations.listeners stationId with
    | zero =>
      have still : s.step (.leave stationId) = s := by
        simp [Watched.step, Stations.step, Stations.leave, noteLeft, noteOwed, count]
      rw [still]
      exact consistent
    | succ n =>
      rw [count] at steady
      simp only [Watched.step, Stations.step, Stations.leave, noteLeft, noteOwed, marksOf, count,
        Nat.succ_ne_zero, if_false, Function.update_self, Nat.add_one_sub_one]
      cases n with
      | zero =>
        simp only [if_true, List.filter_append, Function.update_self]
        rw [show s.stations.spawned.filter (fun mark => mark.station = stationId) = [] from none]
        simp only [Mark.station, decide_true, List.filter_cons_of_pos, List.filter_nil,
          List.nil_append]
        rw [steady.present Nat.one_pos] at steady
        exact .went steady
      | succ n =>
        simp only [Nat.reduceEqDiff, if_false]
        rw [show s.stations.spawned.filter (fun mark => mark.station = stationId) = [] from none]
        exact .settled steady.leave
  · have marks : marksOf (s.stations.leave target) stationId = marksOf s.stations stationId := by
      unfold marksOf Stations.leave
      split
      · rfl
      · simp only
        split
        · simp [Mark.station, Ne.symm same]
        · rfl
    have listeners : (s.stations.leave target).listeners stationId =
        s.stations.listeners stationId := by
      unfold Stations.leave
      split
      · rfl
      · exact Function.update_of_ne same _ _
    have left : noteLeft (.leave target) s.stations s.left stationId = s.left stationId := by
      unfold noteLeft
      simp only
      split
      · exact Function.update_of_ne same _ _
      · rfl
    have rest : (s.stations.leave target).now = s.stations.now ∧
        (s.stations.leave target).registry = s.stations.registry := by
      unfold Stations.leave
      split <;> exact ⟨rfl, rfl⟩
    simp only [Watched.step, Stations.step, noteOwed, marks, listeners, left, rest]
    exact consistent

theorem Consistent.runMark (consistent : s.Consistent stationId) (mark : Mark) :
    (s.step (.runMark mark)).Consistent stationId := by
  unfold Consistent
  simp only [Watched.step, Stations.step, noteLeft, noteOwed]
  by_cases spawned : mark ∈ s.stations.spawned
  · have rest : (s.stations.runMark mark).now = s.stations.now ∧
        (s.stations.runMark mark).listeners = s.stations.listeners ∧
        marksOf (s.stations.runMark mark) stationId =
          (marksOf s.stations stationId).erase mark := by
      unfold Stations.runMark marksOf
      rw [if_pos spawned]
      exact ⟨rfl, rfl, List.erase_filter.symm⟩
    rw [rest.1, rest.2.1, rest.2.2]
    by_cases same : mark.station = stationId
    · subst same
      rw [runMark_registry mark s.stations spawned]
      exact Marked.run consistent (List.mem_filter.mpr ⟨spawned, by simp⟩)
    · have absent : mark ∉ marksOf s.stations stationId := fun member => by
        simp [marksOf, same] at member
      have registry : (s.stations.runMark mark).registry stationId =
          s.stations.registry stationId := by
        unfold Stations.runMark
        rw [if_pos spawned]
        cases mark with
        | active target => exact Requests.markActive_elsewhere (Ne.symm same)
        | idle target => exact Requests.markIdle_elsewhere (Ne.symm same) _
      rw [registry, List.erase_of_not_mem absent]
      exact consistent
  · have still : s.stations.runMark mark = s.stations := if_neg spawned
    rw [still]
    exact consistent

theorem Consistent.step (consistent : s.Consistent stationId) (op : RadioOp)
    (timely : Timely op s) : (s.step op).Consistent stationId := by
  cases op with
  | tick elapsed =>
    have spawned : s.stations.spawned = [] := timely
    have unmarked : s.Unmarked stationId := by
      intro mark member
      rw [spawned] at member
      cases member
    have ticked : Marked stationId _ _ _ _ _ [] :=
      .settled ((consistent.settled unmarked).tick elapsed)
    rw [← marksOf_unmarked unmarked] at ticked
    exact ticked
  | join target => exact consistent.join target timely
  | leave target => exact consistent.leave target timely
  | runMark mark => exact consistent.runMark mark
  | submit target id kind itemId requestedBy =>
    obtain ⟨unmarked, welcome⟩ := timely
    by_cases same : stationId = target
    · subst same
      have submitted : (⟨id, kind, itemId, requestedBy, s.stations.now⟩ :
          QueuedRequest).submittedAt = s.stations.now := rfl
      have steady := (consistent.settled unmarked).submit welcome submitted
      unfold Consistent
      simp only [Watched.step, Stations.step, noteLeft, noteOwed, Requests.submit,
        Requests.update_self, Function.update_self, marksOf]
      rw [show s.stations.spawned.filter (fun mark => mark.station = stationId) = [] from
        marksOf_unmarked unmarked]
      exact .settled steady
    · exact consistent.elsewhere (Requests.submit_elsewhere same _) (Function.update_of_ne same _ _)
  | popNext target =>
    by_cases same : stationId = target
    · subst same
      refine consistent.changeQueue _ _ fun steady => ?_
      rw [noteOwed, Function.update_self]
      exact steady.popNext rfl
    · exact consistent.elsewhere (Requests.popNext_elsewhere same _) (Function.update_of_ne same _ _)
  | list target =>
    by_cases same : stationId = target
    · subst same
      exact consistent.changeQueue _ _ fun steady => steady.list rfl
    · exact consistent.elsewhere (Requests.list_elsewhere same _) rfl
  | remove target requestId =>
    by_cases same : stationId = target
    · subst same
      refine consistent.changeQueue _ _ fun steady => ?_
      rw [noteOwed, Function.update_self]
      exact steady.remove rfl requestId
    · exact consistent.elsewhere (Requests.remove_elsewhere same _) (Function.update_of_ne same _ _)
  | reorder target requestId newIndex =>
    by_cases same : stationId = target
    · subst same
      exact consistent.changeQueue _ _ fun steady => steady.reorder rfl requestId newIndex
    · exact consistent.elsewhere (Requests.reorder_elsewhere same _ _) rfl
  | clear target =>
    by_cases same : stationId = target
    · subst same
      refine consistent.changeQueue _ _ fun steady => ?_
      rw [noteOwed, Function.update_self]
      exact steady.clear rfl
    · exact consistent.elsewhere (Requests.clear_elsewhere same) (Function.update_of_ne same _ _)

end Steps

section Served

variable {now listeners : Nat} {left : Option Nat} {owed : List QueuedRequest}
  {station : Option StationQueue} {stationId : String} {reg : Registry} {s : Watched}

theorem Steady.listed (steady : Steady now listeners left owed station)
    (known : reg stationId = station) :
    ∀ r ∈ owed, r ∈ (Requests.list now stationId reg).1 := by
  intro r owes
  cases station with
  | none =>
    rw [steady.missing rfl] at owes
    cases owes
  | some q =>
    cases expired : q.hasEverHadListener && q.isIdleExpired now with
    | true =>
      rw [steady.expired expired] at owes
      cases owes
    | false =>
      rw [Requests.list_live known expired]
      exact steady.swept r owes

theorem Steady.dropped (steady : Steady now listeners left owed station)
    (known : reg stationId = station) {t : Nat} (gone : left = some t)
    (late : t + idleGrace ≤ now) :
    ∀ r ∈ (Requests.list now stationId reg).1, t ≤ r.submittedAt := by
  have silent : listeners = 0 := by
    rcases Nat.eq_zero_or_pos listeners with none | some
    · exact none
    · rw [steady.present some] at gone
      cases gone
  cases station with
  | none =>
    rw [Requests.list_missing known]
    exact fun r member => nomatch member
  | some q =>
    have tended := steady.tended q rfl
    rcases tended.silent silent with ⟨-, later⟩ | ⟨since, idle, heard, same, -⟩
    · intro r member
      have queued : r ∈ q.items := by
        cases expired : q.hasEverHadListener && q.isIdleExpired now with
        | true =>
          rw [Requests.list_expired known expired] at member
          cases member
        | false =>
          rw [Requests.list_live known expired] at member
          exact Requests.mem_sweepUnheard member
      have since := later r queued
      rw [gone] at since
      exact since
    · obtain rfl : since = t := Option.some.inj (same.symm.trans gone)
      have expired : (q.hasEverHadListener && q.isIdleExpired now) = true := by
        have overdue : idleGrace ≤ now - since := Nat.le_sub_of_add_le' late
        simp [StationQueue.isIdleExpired, idle, heard, overdue]
      rw [Requests.list_expired known expired]
      exact fun r member => nomatch member

theorem popNext_eq_head : (Requests.popNext now stationId reg).1 =
    (Requests.list now stationId reg).1.head? := by
  cases known : reg stationId with
  | none => simp only [Requests.popNext_missing known, Requests.list_missing known, List.head?_nil]
  | some q =>
    cases expired : q.hasEverHadListener && q.isIdleExpired now with
    | true =>
      simp only [Requests.popNext_expired known expired, Requests.list_expired known expired,
        List.head?_nil]
    | false => simp only [Requests.popNext_live known expired, Requests.list_live known expired]

theorem list_popNext : (Requests.list now stationId (Requests.popNext now stationId reg).2).1 =
    (Requests.list now stationId reg).1.tail := by
  cases known : reg stationId with
  | none =>
    simp only [Requests.popNext_missing known, Requests.list_missing known, List.tail_nil]
  | some q =>
    cases expired : q.hasEverHadListener && q.isIdleExpired now with
    | true =>
      simp only [Requests.popNext_expired known expired, Requests.list_expired known expired,
        List.tail_nil, Requests.list_missing (Requests.update_self _ _ _)]
    | false =>
      let popped : StationQueue :=
        { q.sweepUnheard now with items := (q.sweepUnheard now).items.tail }
      have same : popped.hasEverHadListener = q.hasEverHadListener ∧
          popped.idleSince = q.idleSince := by
        simp only [popped]
        unfold StationQueue.sweepUnheard
        split <;> exact ⟨rfl, rfl⟩
      have live : (popped.hasEverHadListener && popped.isIdleExpired now) = false := by
        rw [same.1, StationQueue.isIdleExpired, same.2]
        exact expired
      have swept : (popped.sweepUnheard now).items = (q.sweepUnheard now).items.tail := by
        unfold StationQueue.sweepUnheard
        rw [same.1]
        cases heard : q.hasEverHadListener with
        | true => simp [popped, StationQueue.sweepUnheard, heard]
        | false =>
          have items : popped.items =
              (q.items.filter fun r => now - r.submittedAt < idleGrace).tail := by
            simp [popped, StationQueue.sweepUnheard, heard]
          simp only [Bool.false_eq_true, if_false, items]
          exact List.filter_eq_self.mpr fun r member =>
            (List.mem_filter.mp (List.mem_of_mem_tail member)).2
      simp only [Requests.popNext_live known expired, Requests.list_live known expired]
      rw [Requests.list_live (Requests.update_self _ _ _) live]
      exact swept

theorem Marked.listed {marks : List Mark}
    (marked : Marked stationId now owed station listeners left marks)
    (known : reg stationId = station) :
    ∀ r ∈ owed, r ∈ (Requests.list now stationId reg).1 := by
  cases marked with
  | settled steady => exact steady.listed known
  | came steady => exact steady.listed known
  | went steady => exact steady.listed known

theorem Marked.dropped {marks : List Mark}
    (marked : Marked stationId now owed station listeners left marks)
    (known : reg stationId = station) {t : Nat} (gone : left = some t)
    (late : t + idleGrace ≤ now) :
    ∀ r ∈ (Requests.list now stationId reg).1, t ≤ r.submittedAt := by
  cases marked with
  | settled steady => exact steady.dropped known gone late
  | came steady => cases gone
  | went steady =>
    obtain rfl : now = t := Option.some.inj gone
    have grace := idleGrace_pos
    omega

theorem Consistent.served (consistent : s.Consistent stationId) : s.Served stationId where
  owed := Marked.listed consistent rfl
  popped := popNext_eq_head
  rest := list_popNext
  dropped _ gone late := Marked.dropped consistent rfl gone late

end Served

theorem start_consistent (now : Nat) (stationId : String) :
    (start now).Consistent stationId := by
  have steady : Steady now 0 none [] none := ⟨fun busy => absurd busy (Nat.lt_irrefl _),
    Nat.zero_le _, fun _ _ owes => (nomatch owes), fun _ => rfl, fun _ same => nomatch same⟩
  exact Marked.settled steady

/-- Over every timely run, from a time at which no listener has come and there are no queues: the
requests of every station are served. -/
theorem requests_served (now : Nat) (ops : List RadioOp)
    (timely : Meets step Timely ops (start now)) (stationId : String) :
    (runAll step ops (start now)).Served stationId := by
  have keeps : ∀ op s, Timely op s → (∀ stationId, Consistent s stationId) →
      ∀ stationId, (s.step op).Consistent stationId :=
    fun op _ timely consistent stationId => (consistent stationId).step op timely
  have consistent := timely.keeps keeps (start_consistent now)
  exact (consistent stationId).served

/-- A request that waits before the first listener comes is still listed. -/
theorem heard_request_is_served :
    (runAll step [.submit "a" "r" .song "s" "u", .join "a", .runMark (.active "a"),
      .tick idleGrace] (start 0)).owed "a" = [⟨"r", .song, "s", "u", 0⟩] ∧
    (runAll step [.submit "a" "r" .song "s" "u", .join "a", .runMark (.active "a"),
      .tick idleGrace] (start 0)).Served "a" :=
  ⟨by decide, requests_served 0 _ (by decide) "a"⟩

/-- A request of a listener who was there before the queue is dropped while it listens. -/
theorem present_listener_is_unheard : ¬∀ (now : Nat) (ops : List RadioOp) (stationId : String),
    (runAll step ops (start now)).Served stationId := by
  intro claimed
  have served := claimed 0 [.join "a", .runMark (.active "a"), .submit "a" "r" .song "s" "u",
    .tick idleGrace] "a"
  have listed := served.owed ⟨"r", .song, "s", "u", 0⟩ (by decide)
  revert listed
  decide

end Watched

end Tomb.Grimoire.Radio
