import Mathlib.Algebra.Ring.Nat
import Mathlib.Data.List.Basic
import Mathlib.Data.Nat.Basic

/-! Streaming parsers: a parser takes its next item from the front of a buffer, or waits for more.
One that is steady, whose items do not change by what follows them, yields the same items however
its stream is cut into parts. -/
namespace Tomb.Lib

variable {α γ σ : Type} (next : σ → List α → Option (γ × List α × σ))

structure Drained (α γ σ : Type) where
  items : List γ
  rest : List α
  state : σ

def Drained.prepend (before : List γ) (drained : Drained α γ σ) : Drained α γ σ :=
  { drained with items := before ++ drained.items }

@[simp] theorem Drained.prepend_prepend (first second : List γ) (drained : Drained α γ σ) :
    (drained.prepend second).prepend first = drained.prepend (first ++ second) :=
  congrArg (Drained.mk · drained.rest drained.state) (List.append_assoc ..).symm

@[grind =] def drainFor : (fuel : Nat) → σ → List α → Drained α γ σ
  | 0, s, buffer => ⟨[], buffer, s⟩
  | fuel + 1, s, buffer =>
    match next s buffer with
    | none => ⟨[], buffer, s⟩
    | some (item, rest, s') => (drainFor fuel s' rest).prepend [item]

@[grind =]
def drain (s : σ) (buffer : List α) : Drained α γ σ := drainFor next buffer.length s buffer

def feedAll : σ → List α → List (List α) → Drained α γ σ
  | s, buffer, [] => ⟨[], buffer, s⟩
  | s, buffer, part :: parts =>
    let now := drain next s (buffer ++ part)
    (feedAll now.state now.rest parts).prepend now.items

structure Steady : Prop where
  shrinks : ∀ {s buffer item rest s'}, next s buffer = some (item, rest, s') →
    rest.length < buffer.length
  append : ∀ {s buffer item rest s'}, next s buffer = some (item, rest, s') →
    ∀ more, next s (buffer ++ more) = some (item, rest ++ more, s')

variable {next}

namespace Steady

theorem next_nil (steady : Steady next) (s : σ) : next s [] = none := by
  cases found : next s [] with
  | none => rfl
  | some taken => exact absurd (steady.shrinks found) (Nat.not_lt_zero _)

variable {buffer : List α}

theorem drainFor_enough (steady : Steady next) {fuel fuel' : Nat}
    (enough : buffer.length ≤ fuel) (enough' : buffer.length ≤ fuel') (s : σ) :
    drainFor next fuel s buffer = drainFor next fuel' s buffer := by
  have waits {fuel : Nat} (s : σ) : drainFor next fuel s ([] : List α) = ⟨[], [], s⟩ := by
    cases fuel with
    | zero => rfl
    | succ fuel => rw [drainFor, steady.next_nil]
  induction fuel generalizing fuel' s buffer with
  | zero =>
    have empty : buffer = [] := List.length_eq_zero_iff.mp (Nat.le_zero.mp enough)
    rw [empty, waits, waits]
  | succ fuel ih =>
    cases fuel' with
    | zero =>
      have empty : buffer = [] := List.length_eq_zero_iff.mp (Nat.le_zero.mp enough')
      rw [empty, waits, waits]
    | succ fuel' =>
      rw [drainFor, drainFor]
      cases found : next s buffer with
      | none => rfl
      | some taken =>
        have shorter := steady.shrinks found
        simp only
        rw [ih (Nat.le_of_lt_succ (Nat.lt_of_lt_of_le shorter enough))
          (Nat.le_of_lt_succ (Nat.lt_of_lt_of_le shorter enough'))]

theorem drain_of_none {s : σ} (waits : next s buffer = none) :
    drain next s buffer = ⟨[], buffer, s⟩ := by
  cases buffer with
  | nil => rfl
  | cons a buffer => rw [drain, List.length_cons, drainFor, waits]

theorem drain_of_some (steady : Steady next) {s s' : σ} {rest : List α} {item : γ}
    (found : next s buffer = some (item, rest, s')) :
    drain next s buffer = (drain next s' rest).prepend [item] := by
  have shorter := steady.shrinks found
  cases buffer with
  | nil => cases shorter
  | cons a buffer =>
    rw [drain, List.length_cons, drainFor, found]
    simp only
    rw [steady.drainFor_enough (Nat.le_of_lt_succ shorter) (Nat.le_refl rest.length), drain]

theorem drain_induct (steady : Steady next) {motive : σ → List α → Prop}
    (waits : ∀ s buffer, next s buffer = none → motive s buffer)
    (takes : ∀ s buffer item rest s', next s buffer = some (item, rest, s') → motive s' rest →
      motive s buffer) (s : σ) (buffer : List α) : motive s buffer := by
  induction size : buffer.length using Nat.strongRecOn generalizing s buffer with
  | ind n ih =>
    cases found : next s buffer with
    | none => exact waits s buffer found
    | some taken =>
      obtain ⟨item, rest, s'⟩ := taken
      refine takes s buffer item rest s' found (ih rest.length ?_ s' rest rfl)
      rw [← size]
      exact steady.shrinks found

theorem next_drain (steady : Steady next) (s : σ) (buffer : List α) :
    next (drain next s buffer).state (drain next s buffer).rest = none := by
  induction s, buffer using steady.drain_induct with
  | waits s buffer waits =>
    rw [drain_of_none waits]
    exact waits
  | takes s buffer item rest s' found ih =>
    rw [steady.drain_of_some found]
    exact ih

theorem drain_append (steady : Steady next) (s : σ) (buffer more : List α) :
    drain next s (buffer ++ more) =
      (drain next (drain next s buffer).state ((drain next s buffer).rest ++ more)).prepend
        (drain next s buffer).items := by
  induction s, buffer using steady.drain_induct with
  | waits s buffer waits =>
    rw [drain_of_none waits]
    rfl
  | takes s buffer item rest s' found ih =>
    rw [steady.drain_of_some found, steady.drain_of_some (steady.append found more), ih]
    exact Drained.prepend_prepend ..

/-- However the stream is cut into parts, it yields what it yields as a whole. -/
theorem feedAll_eq (steady : Steady next) {s : σ} (waits : next s buffer = none)
    (parts : List (List α)) :
    feedAll next s buffer parts = drain next s (buffer ++ parts.flatten) := by
  induction parts generalizing s buffer with
  | nil =>
    rw [List.flatten_nil, List.append_nil, drain_of_none waits]
    rfl
  | cons part parts ih =>
    rw [List.flatten_cons, ← List.append_assoc, steady.drain_append, feedAll,
      ih (steady.next_drain s (buffer ++ part))]

end Steady

end Tomb.Lib

/-! Length-delimited frames: a payload behind its length in four bytes, the high byte first. -/
namespace Tomb.Lib

def toBe32 (n : Nat) : List UInt8 :=
  [UInt8.ofNat (n / 2 ^ 24), UInt8.ofNat (n / 2 ^ 16), UInt8.ofNat (n / 2 ^ 8), UInt8.ofNat n]

def fromBe32 (bytes : List UInt8) : Nat :=
  bytes.foldl (fun n byte => n * 2 ^ 8 + byte.toNat) 0

theorem fromBe32_toBe32 {n : Nat} (fits : n < 2 ^ 32) : fromBe32 (toBe32 n) = n := by
  simp only [fromBe32, toBe32, List.foldl_cons, List.foldl_nil, UInt8.toNat_ofNat']
  omega

theorem length_toBe32 (n : Nat) : (toBe32 n).length = 4 := rfl

def frame (payload : List UInt8) : List UInt8 := toBe32 payload.length ++ payload

@[simp] theorem length_frame (payload : List UInt8) :
    (frame payload).length = 4 + payload.length := by
  rw [frame, List.length_append, length_toBe32]

end Tomb.Lib
