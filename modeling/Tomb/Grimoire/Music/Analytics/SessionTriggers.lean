import Tomb.Grimoire.Music.Analytics.PlaybackSessionz

/-! What the triggers make of a playback session, in whatever order they start. -/
namespace Tomb.Grimoire.Music.Analytics
open Lib

structure Reading where
  userId : String
  items : List SessionItem
  (totalItems itemsCompleted : Int)
  status : PlaybackSessionStatus

namespace PlaybackSession

def reading (row : PlaybackSession) : Reading :=
  ⟨row.userId, row.items, row.totalItems, row.itemsCompleted, row.status⟩

def outcome (row : PlaybackSession) : Reading where
  userId := row.userId
  items := row.items
  totalItems := row.totalItems
  itemsCompleted := min row.itemsCompleted row.totalItems
  status := if row.Open ∧ row.Played then .completed else row.status

variable {row : PlaybackSession}

theorem reading_eq_outcome (within : row.itemsCompleted ≤ row.totalItems)
    (unplayed : row.Open → ¬row.Played) : row.reading = row.outcome := by
  have still : ¬(row.Open ∧ row.Played) := fun both => unplayed both.1 both.2
  unfold reading outcome
  rw [Int.min_eq_left within, if_neg still]

theorem outcome_played (isOpen : row.Open) (played : row.Played) :
    row.outcome = ⟨row.userId, row.items, row.totalItems, row.totalItems, .completed⟩ := by
  unfold outcome
  rw [Int.min_eq_right played.1, if_pos ⟨isOpen, played⟩]

theorem outcome_of_reading {made : PlaybackSession} (reads : row.reading = made.outcome) :
    row.outcome = made.outcome := by
  have total : row.totalItems = made.totalItems := congrArg Reading.totalItems reads
  have completed : row.itemsCompleted = min made.itemsCompleted made.totalItems :=
    congrArg Reading.itemsCompleted reads
  have status : row.status = made.outcome.status := congrArg Reading.status reads
  rw [← reading_eq_outcome, reads]
  · omega
  · intro isOpen played
    have madePlayed : made.Played := ⟨by have := played.1; omega, total ▸ played.2⟩
    unfold Open at isOpen
    rw [status] at isOpen
    by_cases madeOpen : made.Open
    · rw [outcome_played madeOpen madePlayed] at isOpen
      rcases isOpen with wrong | wrong <;> cases wrong
    · have same : made.outcome.status = made.status := if_neg fun both => madeOpen both.1
      rw [same] at isOpen
      exact madeOpen isOpen

theorem outcome_completed (row : PlaybackSession) :
    ((setStatus .completed).apply row).outcome = { row.outcome with status := .completed } := by
  have status : ((setStatus .completed).apply row).outcome.status = .completed := by
    unfold outcome
    split <;> rfl
  exact congrArg (fun status => { row.outcome with status := status }) status

theorem outcome_clamped (past : row.totalItems ≤ row.itemsCompleted) :
    ({ row with itemsCompleted := row.totalItems } : PlaybackSession).outcome = row.outcome := by
  have played : ({ row with itemsCompleted := row.totalItems } : PlaybackSession).Played ↔
      row.Played :=
    and_congr_left fun _ => ⟨fun _ => past, fun _ => Int.le_refl _⟩
  unfold outcome
  simp only [played, Int.min_eq_right past, Int.min_self]
  rfl

end PlaybackSession

open PlaybackSession

variable {now : Int}

theorem respects_outcome (made : Reading) :
    Respects (sessionTrigger now) (·.outcome = made) (·.outcome = made) := by
  intro t old new current fired seen kept
  cases t with
  | updatedAt => exact kept
  | autoComplete =>
    obtain ⟨isOpen, played⟩ := of_decide_eq_true fired
    have completed := outcome_played isOpen played
    rw [seen] at completed
    exact (outcome_completed current).trans (by rw [kept, completed])
  | autoCompleteOnStatus =>
    obtain ⟨active, played⟩ := of_decide_eq_true fired
    have completed := outcome_played (.inl active) played
    rw [seen] at completed
    exact (outcome_completed current).trans (by rw [kept, completed])
  | clampCompleted =>
    have beyond : new.totalItems < new.itemsCompleted := of_decide_eq_true fired
    have same := kept.trans seen.symm
    have total : current.totalItems = new.totalItems := congrArg Reading.totalItems same
    have completed : min current.itemsCompleted current.totalItems =
        min new.itemsCompleted new.totalItems := congrArg Reading.itemsCompleted same
    have past : current.totalItems ≤ current.itemsCompleted := by omega
    show ({ current with itemsCompleted := new.totalItems } : PlaybackSession).outcome = made
    rw [← total, outcome_clamped past]
    exact kept

theorem respects_reading (made : Reading) :
    Respects (sessionTrigger now) (·.outcome = made) (·.reading = made) := by
  intro t old new current fired seen kept
  cases t with
  | updatedAt => exact kept
  | autoComplete =>
    obtain ⟨isOpen, played⟩ := of_decide_eq_true fired
    have completed := outcome_played isOpen played
    rw [seen, ← kept] at completed
    have status : current.status = .completed := congrArg Reading.status completed
    rw [← kept]
    exact congrArg (fun status => { current.reading with status := status }) status.symm
  | autoCompleteOnStatus =>
    obtain ⟨active, played⟩ := of_decide_eq_true fired
    have completed := outcome_played (.inl active) played
    rw [seen, ← kept] at completed
    have status : current.status = .completed := congrArg Reading.status completed
    rw [← kept]
    exact congrArg (fun status => { current.reading with status := status }) status.symm
  | clampCompleted =>
    have beyond : new.totalItems < new.itemsCompleted := of_decide_eq_true fired
    have same := kept.trans seen.symm
    have completed : current.itemsCompleted = min new.itemsCompleted new.totalItems :=
      congrArg Reading.itemsCompleted same
    rw [Int.min_eq_right (Int.le_of_lt beyond)] at completed
    rw [← kept]
    exact congrArg (fun count => { current.reading with itemsCompleted := count }) completed.symm

section Settling

variable {depth : Nat} {idle : List SessionTrigger} {change : RowChange PlaybackSession Column}
    {row : PlaybackSession}

theorem settle_closed (closed : (change.apply row).reading = (change.apply row).outcome) :
    (settle (sessionTrigger now) depth idle change row).reading = (change.apply row).outcome :=
  settle_keeps (fun _ reads => (outcome_of_reading reads)) (respects_reading _) closed

theorem settle_completes (isOpen : (change.apply row).Open) (played : (change.apply row).Played)
    (within : (change.apply row).itemsCompleted ≤ (change.apply row).totalItems)
    {t : SessionTrigger} (completes : (sessionTrigger now t).body = fun _ => setStatus .completed)
    (listed : t ∈ idle)
    (fires : (sessionTrigger now t).fires change.sets row (change.apply row) = true) :
    (settle (sessionTrigger now) (depth + 1) idle change row).reading =
      (change.apply row).outcome := by
  let made := (change.apply row).outcome
  let seen (row : PlaybackSession) : Prop :=
    row.outcome = made ∧ row.itemsCompleted ≤ row.totalItems
  let goal (row : PlaybackSession) : Prop := row.reading = made
  have status : made.status = .completed := congrArg Reading.status (outcome_played isOpen played)
  have weaker (row : PlaybackSession) (reads : goal row) : seen row := by
    refine ⟨outcome_of_reading reads, ?_⟩
    have total : row.totalItems = made.totalItems := congrArg Reading.totalItems reads
    have completed : row.itemsCompleted = made.itemsCompleted :=
      congrArg Reading.itemsCompleted reads
    have least : made.itemsCompleted ≤ made.totalItems := Int.min_le_right ..
    omega
  have stays : Respects (sessionTrigger now) seen goal := by
    intro t old new current fired saw kept
    exact respects_reading made t old new current fired saw.1 kept
  have respects : Respects (sessionTrigger now) seen seen := by
    intro t old new current fired saw kept
    refine ⟨respects_outcome made t old new current fired saw.1 kept.1, ?_⟩
    cases t with
    | clampCompleted =>
      have beyond : new.totalItems < new.itemsCompleted := of_decide_eq_true fired
      exact absurd saw.2 (Int.not_le.mpr beyond)
    | _ => exact kept.2
  refine settle_reaches weaker respects stays ⟨rfl, within⟩ listed fires fun current saw => ?_
  rw [completes]
  refine settle_keeps weaker stays ?_
  have reads : ((setStatus .completed).apply current).reading =
      ((setStatus .completed).apply current).outcome :=
    reading_eq_outcome saw.2 fun wrong => by rcases wrong with wrong | wrong <;> cases wrong
  show ((setStatus .completed).apply current).reading = made
  rw [reads, outcome_completed, saw.1, ← status]

def Completes (change : RowChange PlaybackSession Column) (row : PlaybackSession) : Prop :=
  (change.apply row).Open → (change.apply row).Played →
    .totalItems ∈ change.sets ∨ .itemsCompleted ∈ change.sets ∨
      .status ∈ change.sets ∧ (change.apply row).status = .active

theorem autoComplete_fires (isOpen : (change.apply row).Open) (played : (change.apply row).Played)
    (named : .totalItems ∈ change.sets ∨ .itemsCompleted ∈ change.sets) :
    (sessionTrigger now .autoComplete).fires change.sets row (change.apply row) = true := by
  refine Bool.and_eq_true_iff.mpr ⟨?_, decide_eq_true ⟨isOpen, played⟩⟩
  rcases named with named | named <;> simp [sessionTrigger, named]

theorem settle_within (auto : .autoComplete ∈ idle) (onStatus : .autoCompleteOnStatus ∈ idle)
    (within : (change.apply row).itemsCompleted ≤ (change.apply row).totalItems)
    (completes : Completes change row) :
    (settle (sessionTrigger now) (depth + 1) idle change row).reading =
      (change.apply row).outcome := by
  by_cases both : (change.apply row).Open ∧ (change.apply row).Played
  · obtain ⟨isOpen, played⟩ := both
    rcases completes isOpen played with named | named | ⟨named, active⟩
    · exact settle_completes isOpen played within rfl auto
        (autoComplete_fires isOpen played (.inl named))
    · exact settle_completes isOpen played within rfl auto
        (autoComplete_fires isOpen played (.inr named))
    · have fires : (sessionTrigger now .autoCompleteOnStatus).fires change.sets row
          (change.apply row) = true := by
        refine Bool.and_eq_true_iff.mpr ⟨?_, decide_eq_true ⟨active, played⟩⟩
        simp [sessionTrigger, named]
      exact settle_completes isOpen played within rfl onStatus fires
  · exact settle_closed (reading_eq_outcome within fun isOpen played => both ⟨isOpen, played⟩)

theorem settle_clamps (auto : .autoComplete ∈ idle) (onStatus : .autoCompleteOnStatus ∈ idle)
    (clamp : .clampCompleted ∈ idle)
    (beyond : (change.apply row).totalItems < (change.apply row).itemsCompleted)
    (named : .totalItems ∈ change.sets) :
    (settle (sessionTrigger now) (depth + 2) idle change row).reading =
      (change.apply row).outcome := by
  let made := (change.apply row).outcome
  have fires : (sessionTrigger now .clampCompleted).fires change.sets row
      (change.apply row) = true := by
    refine Bool.and_eq_true_iff.mpr ⟨?_, decide_eq_true beyond⟩
    simp [sessionTrigger, named]
  let goal (row : PlaybackSession) : Prop := row.reading = made
  have weaker (row : PlaybackSession) (reads : goal row) : row.outcome = made :=
    outcome_of_reading reads
  refine settle_reaches weaker (respects_outcome made) (respects_reading made) rfl clamp fires
    fun current saw => ?_
  have total : current.totalItems = (change.apply row).totalItems :=
    congrArg Reading.totalItems saw
  have completed : min current.itemsCompleted current.totalItems =
      min (change.apply row).itemsCompleted (change.apply row).totalItems :=
    congrArg Reading.itemsCompleted saw
  have past : current.totalItems ≤ current.itemsCompleted := by omega
  let inner := (sessionTrigger now .clampCompleted).body (change.apply row)
  have clamped : inner.apply current = { current with itemsCompleted := current.totalItems } :=
    congrArg (fun count => ({ current with itemsCompleted := count } : PlaybackSession)) total.symm
  have rest {t : SessionTrigger} (listed : t ∈ idle) (other : t ≠ .clampCompleted) :
      t ∈ idle.erase .clampCompleted := (List.mem_erase_of_ne other).mpr listed
  have settled : (settle (sessionTrigger now) (depth + 1) (idle.erase .clampCompleted) inner
      current).reading = (inner.apply current).outcome :=
    settle_within (rest auto (by decide)) (rest onStatus (by decide)) (Int.le_of_eq total.symm)
      fun _ _ => .inr (.inl List.mem_cons_self)
  rw [clamped, outcome_clamped past, saw] at settled
  exact settled

end Settling

theorem updated_reading (order : TriggerOrder) {change : RowChange PlaybackSession Column}
    {row : PlaybackSession}
    (counts : (change.apply row).totalItems < (change.apply row).itemsCompleted →
      .totalItems ∈ change.sets) (completes : Completes change row) :
    (updated order now change row).reading = (change.apply row).outcome := by
  have listed (t : SessionTrigger) : t ∈ order.val :=
    order.property.mem_iff.mpr (by cases t <;> decide)
  have four : order.val.length = 3 + 1 := order.property.length_eq
  unfold updated
  rw [four]
  by_cases within : (change.apply row).itemsCompleted ≤ (change.apply row).totalItems
  · exact settle_within (listed _) (listed _) within completes
  · exact settle_clamps (listed _) (listed _) (listed _) (Int.not_le.mp within)
      (counts (Int.not_le.mp within))

end Tomb.Grimoire.Music.Analytics
