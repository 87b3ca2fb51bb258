import Mathlib.Algebra.Ring.Nat
import Mathlib.Data.List.DropRight
import Mathlib.Data.List.Infix
import Mathlib.Data.List.TakeWhile

/-! Where a pattern first occurs in a text, the text without the white space around it, and SQLite's
functions on texts. -/
namespace Tomb.Lib

namespace Text

variable {α : Type} [DecidableEq α]

def find (pattern : List α) : List α → Option Nat
  | [] => if pattern.isEmpty then some 0 else none
  | c :: text => if pattern <+: c :: text then some 0 else (find pattern text).map (· + 1)

theorem find_spec {pattern text : List α} {pos : Nat} (found : find pattern text = some pos) :
    pos ≤ text.length ∧ pattern <+: text.drop pos := by
  induction text generalizing pos with
  | nil =>
    rw [find] at found
    split at found
    · rename_i empty
      cases found
      rw [List.isEmpty_iff.mp empty]
      exact ⟨le_rfl, List.nil_prefix⟩
    · cases found
  | cons c text ih =>
    rw [find] at found
    split at found
    · rename_i here
      cases found
      exact ⟨Nat.zero_le _, here⟩
    · obtain ⟨later, behind, rfl⟩ := Option.map_eq_some_iff.mp found
      obtain ⟨inside, occurs⟩ := ih behind
      exact ⟨Nat.succ_le_succ inside, occurs⟩

def isWhiteSpace (c : Char) : Bool :=
  let n := c.toNat
  (9 ≤ n && n ≤ 13) || n = 0x20 || n = 0x85 || n = 0xA0 || n = 0x1680 ||
    (0x2000 ≤ n && n ≤ 0x200A) || n = 0x2028 || n = 0x2029 || n = 0x202F || n = 0x205F || n = 0x3000

def trim (text : String) : String :=
  String.ofList ((text.toList.dropWhile isWhiteSpace).rdropWhile isWhiteSpace)

end Text

/-! SQLite ends a text at its first NUL, except where it looks for a pattern. -/
namespace Sqlite

def upToNul (text : List Char) : List Char := text.takeWhile (· ≠ '\x00')

def length (text : List Char) : Nat := (upToNul text).length

def substrFrom (text : List Char) (start : Nat) : List Char := (upToNul text).drop (start - 1)

def substr (text : List Char) (start len : Nat) : List Char := (substrFrom text start).take len

def substrLast (text : List Char) (n : Nat) : List Char := (upToNul text).drop (length text - n)

@[grind =] def instr (text pattern : List Char) : Nat :=
  match Text.find pattern text with
  | some pos => pos + 1
  | none => 0

def lower (text : String) : List Char := text.toList.map Char.toLower

def byteLength (text : List Char) : Nat := (text.map Char.utf8Size).sum

def nocaseEq (first second : List Char) : Bool :=
  (upToNul first).map Char.toLower = (upToNul second).map Char.toLower &&
    byteLength first = byteLength second

theorem upToNul_eq {text : List Char} (noNul : '\x00' ∉ text) : upToNul text = text := by
  refine List.takeWhile_eq_self_iff.mpr fun c member => ?_
  have differs : c ≠ '\x00' := fun same => noNul (same ▸ member)
  simpa using differs

theorem toLower_cases (c : Char) : c.toLower = c ∨
    c.utf8Size = 1 ∧ c.toLower.utf8Size = 1 ∧ c ≠ '\x00' ∧ c.toLower ≠ '\x00' := by
  unfold Char.toLower
  split
  · rename_i upper
    obtain ⟨low, high⟩ := upper
    have least : 65 ≤ c.val.toNat := low
    have most : c.val.toNat ≤ 90 := high
    have shift : ('a'.val - 'A'.val).toNat = 32 := rfl
    have sum : (c.val + ('a'.val - 'A'.val)).toNat = c.val.toNat + 32 := by
      rw [UInt32.toNat_add, shift]
      omega
    have size (d : Char) (small : d.val.toNat ≤ 127) : d.utf8Size = 1 := by
      rw [Char.utf8Size, if_pos]
      exact UInt32.le_iff_toNat_le.mpr small
    refine .inr ⟨size c (by omega), size _ (by rw [sum]; omega), ?_, ?_⟩
    · rintro rfl
      exact absurd least (by decide)
    · intro nul
      have same := congrArg (·.val.toNat) nul
      have zero : '\x00'.val.toNat = 0 := rfl
      dsimp only at same
      omega
  · exact .inl rfl

theorem nocaseEq_of_map_toLower {first second : List Char}
    (same : first.map Char.toLower = second.map Char.toLower) : nocaseEq first second = true := by
  have bytes (text : List Char) : byteLength (text.map Char.toLower) = byteLength text := by
    rw [byteLength, byteLength, List.map_map]
    refine congrArg List.sum (List.map_congr_left fun c _ => ?_)
    rcases toLower_cases c with fixed | ⟨size, lower, _⟩
    · rw [Function.comp_apply, fixed]
    · rw [Function.comp_apply, size, lower]
  have ends (text : List Char) : upToNul (text.map Char.toLower) = (upToNul text).map Char.toLower := by
    have test : (fun c => decide (c ≠ '\x00')) ∘ Char.toLower = fun c => decide (c ≠ '\x00') := by
      funext c
      rcases toLower_cases c with fixed | ⟨_, _, some, lower⟩
      · rw [Function.comp_apply, fixed]
      · rw [Function.comp_apply, decide_eq_true some, decide_eq_true lower]
    rw [upToNul, List.takeWhile_map, test]
    rfl
  rw [nocaseEq, Bool.and_eq_true, decide_eq_true_eq, decide_eq_true_eq, ← ends, ← ends, same,
    ← bytes first, same, bytes]
  exact ⟨rfl, rfl⟩

theorem substr_one_eq_iff {text start : List Char} (noNul : '\x00' ∉ text)
    (noNul' : '\x00' ∉ start) : substr text 1 (length start) = start ↔ start <+: text := by
  rw [substr, substrFrom, length, upToNul_eq noNul, upToNul_eq noNul', List.prefix_iff_eq_take]
  exact eq_comm

end Sqlite

end Tomb.Lib

/-! SQLite's LIKE: `%` stands for any text, `_` for one character, and the letters of ASCII are
compared without their case. -/
namespace Tomb.Lib.Sqlite

inductive LikePiece where
  | any
  | one
  | letter (c : Char)
  | never

def likePiece (c : Char) : LikePiece :=
  if c = '%' then .any else if c = '_' then .one else .letter c

/-- An escape stands before a character that means itself; at the end of a pattern it matches
nothing. -/
def likePieces (escape : Option Char) : (escaped : Bool) → List Char → List LikePiece
  | true, [] => [.never]
  | true, c :: pattern => .letter c :: likePieces escape false pattern
  | false, [] => []
  | false, c :: pattern =>
    if escape = some c then likePieces escape true pattern
    else likePiece c :: likePieces escape false pattern

@[grind =] def likeMatches : List LikePiece → List Char → Bool
  | [], text => text.isEmpty
  | .any :: pieces, text => text.tails.any (likeMatches pieces)
  | .one :: pieces, text =>
    match text with
    | [] => false
    | _ :: text => likeMatches pieces text
  | .letter c :: pieces, text =>
    match text with
    | [] => false
    | d :: text => c.toLower = d.toLower && likeMatches pieces text
  | .never :: _, _ => false

def like (escape : Option Char) (pattern text : List Char) : Bool :=
  likeMatches (likePieces escape false (upToNul pattern)) (upToNul text)

/-- The second text begins with the first, but for the case of the letters. -/
def BeginsNocase (start text : List Char) : Prop :=
  start.map Char.toLower <+: text.map Char.toLower

instance (start text : List Char) : Decidable (BeginsNocase start text) :=
  inferInstanceAs (Decidable (_ <+: _))

variable {start text : List Char}

theorem BeginsNocase.of_prefix (begins : start <+: text) : BeginsNocase start text :=
  begins.map _

theorem likeMatches_any (text : List Char) : likeMatches [.any] text = true := by
  rw [likeMatches, List.any_eq_true]
  exact ⟨[], (List.mem_tails _ _).mpr List.nil_suffix, rfl⟩

theorem likeMatches_letters_any (start text : List Char) :
    likeMatches (start.map .letter ++ [.any]) text = true ↔ BeginsNocase start text := by
  induction start generalizing text with
  | nil => exact iff_of_true (likeMatches_any text) List.nil_prefix
  | cons c start ih =>
    cases text with
    | nil => simp [likeMatches, BeginsNocase]
    | cons d text =>
      rw [List.map_cons, List.cons_append, likeMatches, Bool.and_eq_true, ih, decide_eq_true_eq,
        BeginsNocase, BeginsNocase, List.map_cons, List.map_cons, List.cons_prefix_cons]

@[grind =] def escaped (text : List Char) : List Char :=
  text.flatMap fun c => if c = '\\' ∨ c = '%' ∨ c = '_' then ['\\', c] else [c]

theorem likePieces_escaped (text rest : List Char) :
    likePieces (some '\\') false (escaped text ++ rest) =
      text.map .letter ++ likePieces (some '\\') false rest := by
  induction text with
  | nil => rfl
  | cons c text ih =>
    rw [escaped, List.flatMap_cons, List.append_assoc, List.map_cons, List.cons_append, ← ih]
    split
    · rw [List.cons_append, likePieces, if_pos rfl]
      rfl
    · rename_i plain
      obtain ⟨back, percent, underscore⟩ : c ≠ '\\' ∧ c ≠ '%' ∧ c ≠ '_' := by simpa using plain
      rw [List.singleton_append, likePieces, if_neg (by simpa using back.symm), likePiece,
        if_neg percent, if_neg underscore]
      rfl

theorem nul_not_mem_escaped (noNul : '\x00' ∉ text) : '\x00' ∉ escaped text := by
  intro member
  obtain ⟨c, inside, found⟩ := List.mem_flatMap.mp member
  split at found
  · rcases List.mem_cons.mp found with same | found
    · cases same
    · exact noNul (List.mem_singleton.mp found ▸ inside)
  · exact noNul (List.mem_singleton.mp found ▸ inside)

theorem like_escaped_iff (noNul : '\x00' ∉ start) :
    like (some '\\') (escaped start ++ ['%']) text = true ↔ BeginsNocase start (upToNul text) := by
  have noNul_pattern : '\x00' ∉ escaped start ++ ['%'] := by
    simpa using nul_not_mem_escaped noNul
  rw [like, upToNul_eq noNul_pattern, likePieces_escaped]
  exact likeMatches_letters_any start _

theorem upToNul_append {rest : List Char} (noNul : '\x00' ∉ start) :
    upToNul (start ++ rest) = start ++ upToNul rest := by
  refine List.takeWhile_append_of_pos fun c member => ?_
  have differs : c ≠ '\x00' := fun same => noNul (same ▸ member)
  simpa using differs

end Tomb.Lib.Sqlite
