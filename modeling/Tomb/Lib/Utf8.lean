import Mathlib.Data.List.Basic

/-! UTF-8 the way Rust's strings are read from bytes. A decoder stands at a first byte and takes a
chunk: a character, or the longest piece of one that is broken off. -/
namespace Tomb.Lib

namespace Utf8

def isCont (byte : UInt8) : Bool := decide (0x80 ≤ byte) && decide (byte ≤ 0xBF)

/-- The second byte of a character of three or four bytes: no overlong form, no surrogate, nothing
above the last code point. -/
def isSecond (first byte : UInt8) : Bool :=
  if first = 0xE0 then decide (0xA0 ≤ byte) && decide (byte ≤ 0xBF)
  else if first = 0xED then decide (0x80 ≤ byte) && decide (byte ≤ 0x9F)
  else if first = 0xF0 then decide (0x90 ≤ byte) && decide (byte ≤ 0xBF)
  else if first = 0xF4 then decide (0x80 ≤ byte) && decide (byte ≤ 0x8F)
  else isCont byte

/-- What the bytes behind a first byte have to pass, if a character begins with that byte. -/
def expected (first : UInt8) : Option (List (UInt8 → Bool)) :=
  if first < 0x80 then some []
  else if first < 0xC2 then none
  else if first < 0xE0 then some [isCont]
  else if first < 0xF0 then some [isSecond first, isCont]
  else if first < 0xF5 then some [isSecond first, isCont, isCont]
  else none

def passes : List (UInt8 → Bool) → List UInt8 → Bool × Nat
  | [], _ => (true, 0)
  | _ :: _, [] => (false, 0)
  | test :: tests, byte :: rest =>
    if test byte then ((passes tests rest).1, (passes tests rest).2 + 1) else (false, 0)

/-- Whether the chunk at a first byte is a character, and how many of the bytes behind it are the
chunk's. -/
def chunk (first : UInt8) (rest : List UInt8) : Bool × Nat :=
  match expected first with
  | some tests => passes tests rest
  | none => (false, 0)

theorem passes_append {tests : List (UInt8 → Bool)} {rest : List UInt8} {more : Nat}
    (valid : passes tests rest = (true, more)) (tail : List UInt8) :
    passes tests (rest.take more ++ tail) = (true, more) := by
  induction tests generalizing rest more with
  | nil =>
    cases valid
    rfl
  | cons test tests ih =>
    cases rest with
    | nil => cases valid
    | cons byte rest =>
      rw [passes] at valid
      split at valid
      · rename_i pass
        obtain ⟨later, rfl⟩ := Prod.mk.inj valid
        have same : passes tests rest = (true, (passes tests rest).2) := Prod.ext later rfl
        rw [List.take_succ_cons, List.cons_append, passes, if_pos pass, ih same]
      · cases valid

theorem chunk_append {first : UInt8} {rest : List UInt8} {more : Nat}
    (valid : chunk first rest = (true, more)) (tail : List UInt8) :
    chunk first (rest.take more ++ tail) = (true, more) := by
  unfold chunk at valid ⊢
  cases known : expected first with
  | none =>
    rw [known] at valid
    cases valid
  | some tests =>
    rw [known] at valid
    exact passes_append valid tail

/-- Every chunk is a character; the first `pending` bytes belong to one that began before. -/
def validFrom : (pending : Nat) → List UInt8 → Bool
  | _, [] => true
  | pending + 1, _ :: rest => validFrom pending rest
  | 0, first :: rest => (chunk first rest).1 && validFrom (chunk first rest).2 rest

def isUtf8 (bytes : List UInt8) : Bool := validFrom 0 bytes

/-- Every chunk that is no character becomes U+FFFD; the first `pending` bytes belong to a chunk
that began before, and `keep` tells if that is a character. -/
@[grind =] def lossyFrom : (pending : Nat) → (keep : Bool) → List UInt8 → List UInt8
  | _, _, [] => []
  | pending + 1, keep, byte :: rest =>
    if keep then byte :: lossyFrom pending keep rest else lossyFrom pending keep rest
  | 0, _, first :: rest =>
    if (chunk first rest).1 then first :: lossyFrom (chunk first rest).2 true rest
    else 0xEF :: 0xBF :: 0xBD :: lossyFrom (chunk first rest).2 false rest

theorem lossyFrom_keep (pending : Nat) (bytes : List UInt8) :
    lossyFrom pending true bytes = bytes.take pending ++ lossyFrom pending false bytes := by
  induction bytes generalizing pending with
  | nil => simp only [lossyFrom, List.take_nil, List.append_nil]
  | cons byte rest ih =>
    cases pending with
    | zero => rfl
    | succ pending =>
      simp only [lossyFrom, if_true, Bool.false_eq_true, if_false, List.take_succ_cons,
        List.cons_append]
      rw [ih]

theorem lossyFrom_eq {pending : Nat} {bytes : List UInt8} (valid : validFrom pending bytes = true) :
    lossyFrom pending true bytes = bytes := by
  induction bytes generalizing pending with
  | nil => rfl
  | cons byte rest ih =>
    cases pending with
    | zero =>
      obtain ⟨character, later⟩ := Bool.and_eq_true_iff.mp valid
      rw [lossyFrom, if_pos character, ih later]
    | succ pending =>
      rw [lossyFrom, if_pos rfl, ih valid]

theorem validFrom_lossyFrom (pending : Nat) (bytes : List UInt8) :
    validFrom pending (lossyFrom pending true bytes) = true ∧
      validFrom 0 (lossyFrom pending false bytes) = true := by
  induction bytes generalizing pending with
  | nil => exact ⟨by cases pending <;> rfl, by cases pending <;> rfl⟩
  | cons byte rest ih =>
    cases pending with
    | zero =>
      have any (keep : Bool) : validFrom 0 (lossyFrom 0 keep (byte :: rest)) = true := by
        rw [lossyFrom]
        split
        · rename_i character
          have read : chunk byte (lossyFrom (chunk byte rest).2 true rest) =
              (true, (chunk byte rest).2) := by
            rw [lossyFrom_keep]
            exact chunk_append (Prod.ext character rfl) _
          rw [validFrom, read]
          exact (ih _).1
        · exact (ih _).2
      exact ⟨any true, any false⟩
    | succ pending => exact ih pending

end Utf8

abbrev Utf8 := { bytes : List UInt8 // Utf8.isUtf8 bytes = true }

namespace Utf8

def fromUtf8Lossy (bytes : List UInt8) : Utf8 :=
  ⟨lossyFrom 0 true bytes, (validFrom_lossyFrom 0 bytes).1⟩

theorem fromUtf8Lossy_of_valid {bytes : List UInt8} (valid : isUtf8 bytes = true) :
    (fromUtf8Lossy bytes).val = bytes := lossyFrom_eq valid

example : (fromUtf8Lossy [0x61, 0xE2, 0x82, 0x62, 0xFF]).val =
    [0x61, 0xEF, 0xBF, 0xBD, 0x62, 0xEF, 0xBF, 0xBD] := by decide

end Utf8

end Tomb.Lib
