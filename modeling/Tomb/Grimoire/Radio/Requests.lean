import Mathlib.Data.List.InsertIdx
import Mathlib.Logic.Function.Basic

/-! The request queues of the radio stations. Each function holds the registry's lock from its
start to its end, so it is one step. Instants are in nanoseconds; the position at which a
request starts to play, which no function here looks at, is left out. -/
namespace Tomb.Grimoire.Radio

inductive RadioItemKind where
  | song
  | video
  deriving DecidableEq

def idleGrace : Nat := 5 * 60 * 1000000000

structure QueuedRequest where
  id : String
  kind : RadioItemKind
  (itemId requestedBy : String)
  submittedAt : Nat
  deriving DecidableEq

structure StationQueue where
  items : List QueuedRequest
  idleSince : Option Nat
  hasEverHadListener : Bool

namespace StationQueue

def new : StationQueue := ⟨[], none, false⟩

def isIdleExpired (now : Nat) (q : StationQueue) : Bool :=
  match q.idleSince with
  | some t => idleGrace ≤ now - t
  | none => false

def sweepUnheard (now : Nat) (q : StationQueue) : StationQueue :=
  if q.hasEverHadListener then q
  else { q with items := q.items.filter fun r => now - r.submittedAt < idleGrace }

end StationQueue

abbrev Registry := String → Option StationQueue

namespace Requests

def update (reg : Registry) (stationId : String) (q : Option StationQueue) : Registry :=
  Function.update reg stationId q

def markActive (stationId : String) (reg : Registry) : Registry :=
  match reg stationId with
  | some q => update reg stationId (some { q with idleSince := none, hasEverHadListener := true })
  | none => reg

def markIdle (now : Nat) (stationId : String) (reg : Registry) : Registry :=
  match reg stationId with
  | some q =>
    if q.idleSince.isNone then update reg stationId (some { q with idleSince := some now })
    else reg
  | none => reg

def submit (stationId : String) (request : QueuedRequest) (reg : Registry) : Registry :=
  let q := (reg stationId).getD .new
  update reg stationId (some { q with idleSince := none, items := q.items ++ [request] })

@[grind =]
def popNext (now : Nat) (stationId : String) (reg : Registry) : Option QueuedRequest × Registry :=
  match reg stationId with
  | none => (none, reg)
  | some q =>
    if q.hasEverHadListener && q.isIdleExpired now then (none, update reg stationId none)
    else
      let q := q.sweepUnheard now
      (q.items.head?, update reg stationId (some { q with items := q.items.tail }))

@[grind =]
def list (now : Nat) (stationId : String) (reg : Registry) : List QueuedRequest × Registry :=
  match reg stationId with
  | none => ([], reg)
  | some q =>
    if q.hasEverHadListener && q.isIdleExpired now then ([], update reg stationId none)
    else
      let q := q.sweepUnheard now
      (q.items, update reg stationId (some q))

def remove (stationId requestId : String) (reg : Registry) : Bool × Registry :=
  match reg stationId with
  | none => (false, reg)
  | some q =>
    let items := q.items.filter fun r => r.id ≠ requestId
    (items.length ≠ q.items.length, update reg stationId (some { q with items }))

def lift (requestId : String) : List QueuedRequest → Option (QueuedRequest × List QueuedRequest)
  | [] => none
  | r :: rest =>
    if r.id = requestId then some (r, rest)
    else (lift requestId rest).map fun lifted => (lifted.1, r :: lifted.2)

def reorder (stationId requestId : String) (newIndex : Nat) (reg : Registry) :
    Option Nat × Registry :=
  match reg stationId with
  | none => (none, reg)
  | some q =>
    match lift requestId q.items with
    | none => (none, reg)
    | some (item, rest) =>
      let clamped := min newIndex rest.length
      (some clamped, update reg stationId (some { q with items := rest.insertIdx clamped item }))

def clear (stationId : String) (reg : Registry) : Nat × Registry :=
  match reg stationId with
  | none => (0, reg)
  | some q => (q.items.length, update reg stationId (some { q with items := [] }))

theorem sweepUnheard_eq (now : Nat) (q : StationQueue) :
    q.sweepUnheard now = { q with items := (q.sweepUnheard now).items } := by
  unfold StationQueue.sweepUnheard
  split <;> rfl

variable {now : Nat}

theorem mem_sweepUnheard {q : StationQueue} {r : QueuedRequest}
    (there : r ∈ (q.sweepUnheard now).items) : r ∈ q.items := by
  unfold StationQueue.sweepUnheard at there
  split at there
  · exact there
  · exact (List.mem_filter.mp there).1

variable {stationId : String} {reg : Registry}

theorem list_missing (known : reg stationId = none) : list now stationId reg = ([], reg) := by
  simp only [list, known]

theorem list_expired {q : StationQueue} (known : reg stationId = some q)
    (expired : (q.hasEverHadListener && q.isIdleExpired now) = true) :
    list now stationId reg = ([], update reg stationId none) := by
  simp only [list, known, expired, if_true]

theorem list_live {q : StationQueue} (known : reg stationId = some q)
    (live : (q.hasEverHadListener && q.isIdleExpired now) = false) :
    list now stationId reg = ((q.sweepUnheard now).items,
      update reg stationId (some (q.sweepUnheard now))) := by
  simp only [list, known, live, Bool.false_eq_true, if_false]

theorem popNext_missing
    (known : reg stationId = none) : popNext now stationId reg = (none, reg) := by
  simp only [popNext, known]

theorem popNext_expired {q : StationQueue} (known : reg stationId = some q)
    (expired : (q.hasEverHadListener && q.isIdleExpired now) = true) :
    popNext now stationId reg = (none, update reg stationId none) := by
  simp only [popNext, known, expired, if_true]

theorem popNext_live {q : StationQueue} (known : reg stationId = some q)
    (live : (q.hasEverHadListener && q.isIdleExpired now) = false) :
    popNext now stationId reg = ((q.sweepUnheard now).items.head?, update reg stationId
      (some { q.sweepUnheard now with items := (q.sweepUnheard now).items.tail })) := by
  simp only [popNext, known, live, Bool.false_eq_true, if_false]

theorem lift_perm {requestId : String} {items rest : List QueuedRequest} {item : QueuedRequest}
    (lifted : lift requestId items = some (item, rest)) : items.Perm (item :: rest) := by
  induction items generalizing rest with
  | nil => cases lifted
  | cons r tail ih =>
    unfold lift at lifted
    split at lifted
    · cases lifted
      exact .refl _
    · obtain ⟨⟨found, others⟩, inner, same⟩ := Option.map_eq_some_iff.mp lifted
      cases same
      exact ((ih inner).cons r).trans (.swap _ _ _)

theorem reorder_mem {requestId : String} {items rest : List QueuedRequest} {item : QueuedRequest}
    (lifted : lift requestId items = some (item, rest)) (index : Nat) (r : QueuedRequest) :
    r ∈ rest.insertIdx (min index rest.length) item ↔ r ∈ items := by
  have inserted := List.perm_insertIdx item rest (Nat.min_le_right index rest.length)
  exact (inserted.trans (lift_perm lifted).symm).mem_iff

@[simp] theorem update_self (reg : Registry) (stationId : String) (q : Option StationQueue) :
    update reg stationId q stationId = q := Function.update_self _ _ _

theorem update_of_ne {other : String} (q : Option StationQueue)
    (differs : other ≠ stationId) : update reg stationId q other = reg other :=
  Function.update_of_ne differs _ _

section Elsewhere

variable {reg : Registry} {stationId other : String} (differs : other ≠ stationId)

include differs

theorem markActive_elsewhere : markActive stationId reg other = reg other := by
  unfold markActive
  cases reg stationId with
  | none => rfl
  | some q => exact update_of_ne _ differs

theorem markIdle_elsewhere (now : Nat) : markIdle now stationId reg other = reg other := by
  unfold markIdle
  cases reg stationId with
  | none => rfl
  | some q =>
    simp only
    split
    · exact update_of_ne _ differs
    · rfl

theorem submit_elsewhere (request : QueuedRequest) :
    submit stationId request reg other = reg other := update_of_ne _ differs

theorem popNext_elsewhere (now : Nat) : (popNext now stationId reg).2 other = reg other := by
  unfold popNext
  split
  · rfl
  · split
    · exact update_of_ne _ differs
    · exact update_of_ne _ differs

theorem list_elsewhere (now : Nat) : (list now stationId reg).2 other = reg other := by
  unfold list
  split
  · rfl
  · split
    · exact update_of_ne _ differs
    · exact update_of_ne _ differs

theorem remove_elsewhere (requestId : String) :
    (remove stationId requestId reg).2 other = reg other := by
  unfold remove
  split
  · rfl
  · exact update_of_ne _ differs

theorem reorder_elsewhere (requestId : String) (newIndex : Nat) :
    (reorder stationId requestId newIndex reg).2 other = reg other := by
  unfold reorder
  split
  · rfl
  · split
    · rfl
    · exact update_of_ne _ differs

theorem clear_elsewhere : (clear stationId reg).2 other = reg other := by
  unfold clear
  split
  · rfl
  · exact update_of_ne _ differs

end Elsewhere

end Requests

end Tomb.Grimoire.Radio
