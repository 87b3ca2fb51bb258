import Mathlib.Algebra.Ring.Nat
import Mathlib.Data.List.Nodup
import Mathlib.Data.List.Perm.Subperm

/-! A content that is put together from pieces of it, written at their places in any order. -/
namespace Tomb.Lib

variable {α : Type}

/-- The file with the data at the offset. What it lacks before the offset is filled up. -/
def writeAt (fill : α) (file : List α) (offset : Nat) (data : List α) : List α :=
  (file ++ List.replicate (offset - file.length) fill).take offset ++ data ++
    file.drop (offset + data.length)

theorem length_writeAt (fill : α) (file : List α) (offset : Nat) (data : List α) :
    (writeAt fill file offset data).length = max file.length (offset + data.length) := by
  unfold writeAt
  simp only [List.length_append, List.length_take, List.length_replicate, List.length_drop]
  omega

theorem getElem?_writeAt_inside (fill : α) (file : List α) {offset i : Nat} (data : List α)
    (after : offset ≤ i) (before : i < offset + data.length) :
    (writeAt fill file offset data)[i]? = data[i - offset]? := by
  have width : ((file ++ List.replicate (offset - file.length) fill).take offset).length =
      offset := by
    simp only [List.length_take, List.length_append, List.length_replicate]
    omega
  unfold writeAt
  rw [List.append_assoc, List.getElem?_append_right (by omega), width,
    List.getElem?_append_left (by omega)]

theorem getElem?_writeAt_outside (fill : α) {file : List α} {offset i : Nat} (data : List α)
    (there : i < file.length) (outside : i < offset ∨ offset + data.length ≤ i) :
    (writeAt fill file offset data)[i]? = file[i]? := by
  have width : ((file ++ List.replicate (offset - file.length) fill).take offset).length =
      offset := by
    simp only [List.length_take, List.length_append, List.length_replicate]
    omega
  unfold writeAt
  rcases outside with before | after
  · rw [List.append_assoc, List.getElem?_append_left (by omega), List.getElem?_take_of_lt before,
      List.getElem?_append_left there]
  · rw [List.getElem?_append_right (by rw [List.length_append, width]; exact after),
      List.length_append, width, List.getElem?_drop]
    congr 1
    omega

structure Piece where
  (offset length : Nat)

namespace Piece

def positions (piece : Piece) : List Nat := List.range' piece.offset piece.length

def inside (piece : Piece) (size : Nat) : Prop := piece.offset + piece.length ≤ size

instance (piece : Piece) (size : Nat) : Decidable (piece.inside size) :=
  inferInstanceAs (Decidable (_ ≤ _))

def data (piece : Piece) (content : List α) : List α :=
  (content.drop piece.offset).take piece.length

theorem mem_positions {piece : Piece} {i : Nat} :
    i ∈ piece.positions ↔ piece.offset ≤ i ∧ i < piece.offset + piece.length := by
  unfold positions
  rw [List.mem_range'_1]

end Piece

/-- The file is no longer than the content, and agrees with it at these positions. -/
structure Agrees (content : List α) (known : List Nat) (file : List α) : Prop where
  length : file.length ≤ content.length
  same : ∀ i ∈ known, i < file.length ∧ file[i]? = content[i]?

variable {content file : List α}

variable {known : List Nat}

theorem Agrees.refl (within : ∀ i ∈ known, i < content.length) : Agrees content known content := ⟨Nat.le_refl _, fun i member => ⟨within i member, rfl⟩⟩

theorem Agrees.write (agrees : Agrees content known file) (fill : α) {piece : Piece}
    (inside : piece.inside content.length) : Agrees content (known ++ piece.positions)
      (writeAt fill file piece.offset (piece.data content)) := by
  have width : (piece.data content).length = piece.length := by
    unfold Piece.data Piece.inside at *
    rw [List.length_take, List.length_drop]
    omega
  have shorter := agrees.length
  unfold Piece.inside at inside
  constructor
  · rw [length_writeAt, width]
    omega
  · intro i member
    rw [length_writeAt, width]
    by_cases own : i ∈ piece.positions
    · obtain ⟨after, before⟩ := Piece.mem_positions.mp own
      refine ⟨by omega, ?_⟩
      rw [getElem?_writeAt_inside fill file _ after (by omega)]
      unfold Piece.data
      rw [List.getElem?_take_of_lt (by omega), List.getElem?_drop]
      congr 1
      omega
    · obtain ⟨there, same⟩ := agrees.same i ((List.mem_append.mp member).resolve_right own)
      refine ⟨by omega, ?_⟩
      rw [← same]
      apply getElem?_writeAt_outside fill _ there
      rw [Piece.mem_positions] at own
      omega

theorem writeAt_whole (fill : α) (shorter : file.length ≤ content.length) :
    writeAt fill file 0 content = content := by
  unfold writeAt
  rw [List.take_zero, List.nil_append, List.drop_eq_nil_of_le (by omega), List.append_nil]

theorem Agrees.whole (agrees : Agrees content known file) : Agrees content known content :=
  .refl fun i member => Nat.lt_of_lt_of_le (agrees.same i member).1 agrees.length

theorem Agrees.eq (agrees : Agrees content known file)
    (all : ∀ i < content.length, i ∈ known) : file = content := by
  apply List.ext_getElem?
  intro i
  by_cases inside : i < content.length
  · exact (agrees.same i (all i inside)).2
  · have shorter := agrees.length
    rw [List.getElem?_eq_none (by omega), List.getElem?_eq_none (by omega)]

/-- As many distinct positions as the content has are all of them. -/
theorem covers {size : Nat} {positions : List Nat} (distinct : positions.Nodup)
    (below : ∀ i ∈ positions, i < size) (enough : size ≤ positions.length) :
    ∀ i < size, i ∈ positions := by
  intro i inside
  have sub : positions.Subperm (List.range size) :=
    List.subperm_of_subset distinct fun j member => List.mem_range.mpr (below j member)
  have perm := sub.perm_of_length_le (by rw [List.length_range]; exact enough)
  exact perm.mem_iff.mpr (List.mem_range.mpr inside)

theorem length_flatMap_positions (pieces : List Piece) :
    (pieces.flatMap Piece.positions).length = (pieces.map (·.length)).sum := by
  rw [List.length_flatMap]
  congr 1
  apply List.map_congr_left
  intro piece _
  exact List.length_range'

theorem flatMap_pages (xs : List α) (limit n : Nat) :
    ((List.range n).flatMap fun i => (xs.drop (i * limit)).take limit) = xs.take (n * limit) := by
  induction n with
  | zero => rw [List.range_zero, List.flatMap_nil, Nat.zero_mul, List.take_zero]
  | succ n ih =>
    rw [List.range_succ, List.flatMap_append, ih, List.flatMap_singleton, Nat.succ_mul,
      List.take_add]

theorem take_of_page_eq_nil {xs : List α} {limit n : Nat} (some : 0 < limit)
    (last : (xs.drop (n * limit)).take limit = []) : xs.take (n * limit) = xs := by
  rcases List.take_eq_nil_iff.mp last with zero | short
  · omega
  · exact List.take_of_length_le (List.drop_eq_nil_iff.mp short)

end Tomb.Lib
