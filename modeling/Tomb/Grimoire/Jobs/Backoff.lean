import Tomb.Grimoire.Jobs.Interleavings

/-! The delay before a failed job is tried again. It doubles with each failure up to a cap, which
is applied to the finished product. -/
namespace Tomb.Grimoire.Jobs
open Tomb.Lib

/-- A failure is marked within the integer types: the new count in 32 bits, the power and the
product in 64. A job that is to run again waits for 5 to 304 seconds, and its backoff is no shorter
than after fewer failures. -/
structure MarksSafely (current : Job) (failure : Tables.Failure) (now : Int) : Prop where
  count : current.retryCount + 1 < 2 ^ 31
  power : failure.retry = true → 2 ^ (failure.retryCount - 1) < 2 ^ 63
  product : failure.retry = true → 5 * 2 ^ (failure.retryCount - 1) < 2 ^ 63
  delay : failure.retry = true →
    5 ≤ failure.scheduledAt - now ∧ failure.scheduledAt - now ≤ 304
  grows : failure.retry = true → ∀ fewer, 1 ≤ fewer → fewer ≤ failure.retryCount →
    backoff fewer ≤ backoff failure.retryCount

theorem product_fits_iff (retries : Nat) : 5 * 2 ^ retries < 2 ^ 63 ↔ retries ≤ 60 := by
  constructor
  · intro fits
    by_contra many
    have power : 2 ^ 61 ≤ 2 ^ retries := Nat.pow_le_pow_right (by decide) (by omega)
    omega
  · intro few
    have power : 2 ^ retries ≤ 2 ^ 60 := Nat.pow_le_pow_right (by decide) few
    omega

theorem backoff_of_fits {retries : Nat} (few : retries ≤ 60) :
    backoff (retries + 1) = min (5 * 2 ^ retries) 300 := by
  have fits := (product_fits_iff retries).mpr few
  have wide : (5 * 2 ^ retries : Int) < 2 ^ 63 := by exact_mod_cast fits
  have positive : (0 : Int) < 2 ^ retries := Int.pow_pos (by decide)
  have unwrapped : Int.bmod (5 * 2 ^ retries) (2 ^ 64) = 5 * 2 ^ retries :=
    Int.bmod_eq_of_le (by omega) (by omega)
  change min (Int.bmod (5 * 2 ^ retries) (2 ^ 64)) 300 = _
  rw [unwrapped]

theorem backoff_mono {fewer more : Nat} (le : fewer ≤ more) (few : more ≤ 60) :
    backoff (fewer + 1) ≤ backoff (more + 1) := by
  have power : (2 ^ fewer : Int) ≤ 2 ^ more := by
    exact_mod_cast Nat.pow_le_pow_right (by decide) le
  rw [backoff_of_fits (le.trans few), backoff_of_fits few]
  omega

theorem backoff_range {retries : Nat} (few : retries ≤ 60) :
    5 ≤ backoff (retries + 1) ∧ backoff (retries + 1) ≤ 300 := by
  have first : backoff (0 + 1) = 5 := rfl
  rw [← first]
  exact ⟨backoff_mono (Nat.zero_le retries) few, min_le_right _ _⟩

theorem wrapped_sum {now delay : Int} (nowLow : -2 ^ 63 ≤ now) (nowHigh : now < 2 ^ 63)
    (low : 5 ≤ delay) (high : delay ≤ 304) :
    (5 ≤ Int.bmod (now + delay) (2 ^ 64) - now ∧ Int.bmod (now + delay) (2 ^ 64) - now ≤ 304) ↔
      now + delay < 2 ^ 63 := by
  by_cases fits : now + delay < 2 ^ 63
  · rw [Int.bmod_eq_of_le (by omega) (by omega)]
    omega
  · have wraps : Int.bmod (now + delay) (2 ^ 64) = now + delay - 2 ^ 64 := by
      rw [← Int.sub_bmod_right]
      exact Int.bmod_eq_of_le (by omega) (by omega)
    rw [wraps]
    omega

/-- Safe are exactly the failures of a job whose count still fits, and that, if they put it back
into the queue, come after at most sixty others, at a time that leaves room for the delay. -/
theorem marksSafely_iff (current : Job) (detail : Option String) (errorsJson : String)
    (retryable : Bool) (jitter now : Int) (jitterLow : 0 ≤ jitter) (jitterHigh : jitter < 5)
    (nowLow : -2 ^ 63 ≤ now) (nowHigh : now < 2 ^ 63) :
    MarksSafely current (failureOf current detail errorsJson retryable jitter now) now ↔
      current.retryCount + 1 < 2 ^ 31 ∧
        (retryable = true → current.retryCount + 1 < current.maxRetries →
          current.retryCount ≤ 60 ∧
            now + min (5 * 2 ^ current.retryCount) 300 + jitter < 2 ^ 63) := by
  have retries : (failureOf current detail errorsJson retryable jitter now).retry = true ↔
      retryable = true ∧ current.retryCount + 1 < current.maxRetries := by
    simp [failureOf]
  have at_ : (failureOf current detail errorsJson retryable jitter now).retry = true →
      (failureOf current detail errorsJson retryable jitter now).scheduledAt =
        Int.bmod (now + (backoff (current.retryCount + 1) + jitter)) (2 ^ 64) := by
    intro again
    rw [← Int.add_assoc]
    exact if_pos again
  constructor
  · intro safe
    refine ⟨safe.count, fun asked remain => ?_⟩
    have again := retries.mpr ⟨asked, remain⟩
    have few : current.retryCount ≤ 60 := (product_fits_iff _).mp (safe.product again)
    have delay := safe.delay again
    have range := backoff_range few
    rw [at_ again, wrapped_sum nowLow nowHigh (by omega) (by omega), backoff_of_fits few] at delay
    exact ⟨few, by omega⟩
  · rintro ⟨count, allowed⟩
    have few : (failureOf current detail errorsJson retryable jitter now).retry = true →
        current.retryCount ≤ 60 := fun again =>
      (allowed (retries.mp again).1 (retries.mp again).2).1
    refine ⟨count, fun again => ?_, fun again => (product_fits_iff _).mpr (few again),
      fun again => ?_, fun again fewer some le => ?_⟩
    · exact Nat.pow_lt_pow_right (by decide) (Nat.lt_of_le_of_lt (few again) (by decide))
    · obtain ⟨asked, remain⟩ := retries.mp again
      have range := backoff_range (few again)
      rw [at_ again, wrapped_sum nowLow nowHigh (by omega) (by omega), backoff_of_fits (few again),
        ← Int.add_assoc]
      exact (allowed asked remain).2
    · obtain ⟨fewer, rfl⟩ : ∃ n, fewer = n + 1 := ⟨fewer - 1, by omega⟩
      exact backoff_mono (Nat.le_of_succ_le_succ le) (few again)

def Tables.after (t : Tables) (calls : List JobCall) : Tables :=
  calls.foldl (fun t call => (call.prog.run t).2) t

def persistent : List JobCall :=
  JobCall.createJob "job" ⟨none, .transcodeVideo, "{}", some 100, some 0, none, none⟩ none 0 ::
    (List.replicate 61 [JobCall.tryClaimPendingJob "job" 0,
      JobCall.markJobFailed "job" none "[]" true 0 0 0]).flatten

theorem first_failure_marks_safely :
    MarksSafely (Tables.newJob "job" ⟨none, .transcodeVideo, "{}", none, none, none, none⟩ 3 0)
      (failureOf (Tables.newJob "job"
        ⟨none, .transcodeVideo, "{}", none, none, none, none⟩ 3 0) none "[]" true 4 1000)
      1000 :=
  (marksSafely_iff _ none "[]" true 4 1000 (by decide) (by decide) (by decide) (by decide)).mpr
    (by decide)

/-- Behind the sixty-second failure the product no longer fits. -/
theorem long_retries_overflow : ¬∀ (calls : List JobCall), ∀ job ∈ (noTables.after calls).jobz,
    ∀ (detail : Option String) (errorsJson : String) (retryable : Bool) (jitter now : Int),
      0 ≤ jitter → jitter < 5 → -2 ^ 63 ≤ now → now < 2 ^ 63 →
        MarksSafely job (failureOf job detail errorsJson retryable jitter now) now := by
  intro claimed
  have row : ((noTables.after persistent).jobz.get "job").any fun job =>
      job.retryCount = 61 && job.maxRetries = 100 := by decide +kernel
  cases found : (noTables.after persistent).jobz.get "job" with
  | none =>
    rw [found] at row
    cases row
  | some job =>
    simp only [found, Option.any_some, Bool.and_eq_true, decide_eq_true_eq] at row
    have safe := claimed persistent job ((Table.get_eq_some _ _ _).mp found).1 none "[]" true 0 0
      (by decide) (by decide) (by decide) (by decide)
    have again : (failureOf job none "[]" true 0 0).retry = true := by
      simp [failureOf, row.1, row.2]
    have few : job.retryCount ≤ 60 := (product_fits_iff _).mp (safe.product again)
    omega

end Tomb.Grimoire.Jobs
