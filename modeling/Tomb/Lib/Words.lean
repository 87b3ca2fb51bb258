import Mathlib.Data.List.DropRight
import Mathlib.Data.List.Infix
import Mathlib.Data.List.ModifyLast

/-! The words of a text, its longest runs of characters that count, and the text that they make with
one separator between each two. -/
namespace Tomb.Lib

section Words

variable {α β : Type} (counts : α → Bool)

@[grind =] def leadingWord : List α → List α × List (List α)
  | [] => ([], [])
  | c :: text =>
    let (first, rest) := leadingWord text
    if counts c then (c :: first, rest)
    else ([], if first.isEmpty then rest else first :: rest)

@[grind =] def words (text : List α) : List (List α) :=
  let (first, rest) := leadingWord counts text
  if first.isEmpty then rest else first :: rest

theorem intercalate_cons (sep : α) (piece : List α) (pieces : List (List α)) :
    [sep].intercalate (piece :: pieces) = piece ++ pieces.flatMap (sep :: ·) := by
  induction pieces generalizing piece with
  | nil => simp
  | cons next rest ih =>
    rw [List.intercalate_cons_cons, ih, List.flatMap_cons]
    simp

variable {counts}

theorem leadingWord_cons {c : α} (counted : counts c = true) (text : List α) :
    leadingWord counts (c :: text) =
      (c :: (leadingWord counts text).1, (leadingWord counts text).2) := by
  simp [leadingWord, counted]

theorem leadingWord_cons_skip {c : α} (skips : counts c = false) (text : List α) :
    leadingWord counts (c :: text) = ([], words counts text) := by
  simp [leadingWord, words, skips]

theorem words_cons_skip {c : α} (skips : counts c = false) (text : List α) :
    words counts (c :: text) = words counts text := by
  rw [words, leadingWord_cons_skip skips]
  rfl

theorem words_cons {c : α} (counted : counts c = true) (text : List α) :
    words counts (c :: text) =
      (c :: (leadingWord counts text).1) :: (leadingWord counts text).2 := by
  rw [words, leadingWord_cons counted]
  rfl

theorem leadingWord_append_skip {c : α} (skips : counts c = false) (text : List α) :
    leadingWord counts (text ++ [c]) = leadingWord counts text := by
  induction text with
  | nil => simp [leadingWord, skips]
  | cons d text ih => rw [List.cons_append, leadingWord, leadingWord, ih]

theorem words_dropWhile {p : α → Bool} (skips : ∀ c, p c = true → counts c = false)
    (text : List α) : words counts (text.dropWhile p) = words counts text := by
  induction text with
  | nil => rfl
  | cons c text ih =>
    rw [List.dropWhile_cons]
    split
    · rename_i dropped
      rw [ih, words_cons_skip (skips c dropped)]
    · rfl

theorem words_rdropWhile {p : α → Bool} (skips : ∀ c, p c = true → counts c = false)
    (text : List α) : words counts (text.rdropWhile p) = words counts text := by
  induction text using List.reverseRecOn with
  | nil => rfl
  | append_singleton text c ih =>
    rw [List.rdropWhile_concat]
    split
    · rename_i dropped
      rw [ih]
      unfold words
      rw [leadingWord_append_skip (skips c dropped)]
    · rfl

/-- The words are not empty, and their characters count. -/
def Wordly (counts : α → Bool) (word : List α) : Prop := word ≠ [] ∧ ∀ c ∈ word, counts c = true

theorem leadingWord_wordly (text : List α) :
    (∀ c ∈ (leadingWord counts text).1, counts c = true) ∧
      ∀ word ∈ words counts text, Wordly counts word := by
  induction text with
  | nil => exact ⟨fun _ none => (nomatch none), fun _ none => (nomatch none)⟩
  | cons c text ih =>
    obtain ⟨first, all⟩ := ih
    cases counted : counts c with
    | true =>
      rw [leadingWord_cons counted, words_cons counted]
      have whole : ∀ d ∈ c :: (leadingWord counts text).1, counts d = true := by
        intro d member
        obtain rfl | later := List.mem_cons.mp member
        · exact counted
        · exact first d later
      refine ⟨whole, fun word member => ?_⟩
      obtain rfl | later := List.mem_cons.mp member
      · exact ⟨List.cons_ne_nil _ _, whole⟩
      · apply all word
        unfold words
        dsimp only
        split
        · exact later
        · exact List.mem_cons_of_mem _ later
    | false =>
      rw [leadingWord_cons_skip counted, words_cons_skip counted]
      exact ⟨fun _ none => (nomatch none), all⟩

variable {text : List α}

theorem wordly_of_mem_words {word : List α} (member : word ∈ words counts text) :
    Wordly counts word :=
  (leadingWord_wordly text).2 word member

variable (counts) (image : α → β) (sep : β)

/-- A text with its counted characters replaced, and a separator for what is between them. None is
put into a gap that is open already. -/
def spaced : Bool → List α → List β
  | _, [] => []
  | gap, c :: text =>
    if counts c then image c :: spaced false text
    else if gap then spaced true text
    else sep :: spaced true text

theorem spaced_eq (text : List α) :
    (∃ tail, (tail = [] ∨ tail = [sep] ∧ words counts text ≠ []) ∧
      spaced counts image sep true text =
      [sep].intercalate ((words counts text).map (List.map image)) ++ tail) ∧
    ∃ tail, (tail = [] ∨ tail = [sep]) ∧ spaced counts image sep false text =
      (leadingWord counts text).1.map image ++
        (leadingWord counts text).2.flatMap (fun word => sep :: word.map image) ++ tail := by
  induction text with
  | nil => exact ⟨⟨[], .inl rfl, rfl⟩, ⟨[], .inl rfl, rfl⟩⟩
  | cons c text ih =>
    obtain ⟨⟨tail, ends, opened⟩, ⟨tail', ends', closed⟩⟩ := ih
    cases counted : counts c with
    | true =>
      constructor
      · refine ⟨tail', ends'.imp_right fun one => ⟨one, ?_⟩, ?_⟩
        · rw [words_cons counted]
          exact List.cons_ne_nil _ _
        · rw [spaced, if_pos counted, closed, words_cons counted, List.map_cons, List.map_cons,
            intercalate_cons, List.flatMap_map]
          simp
      · refine ⟨tail', ends', ?_⟩
        rw [spaced, if_pos counted, closed, leadingWord_cons counted]
        rfl
    | false =>
      have skips : ¬counts c = true := by rw [counted]; exact Bool.false_ne_true
      constructor
      · refine ⟨tail, ?_, ?_⟩
        · rwa [words_cons_skip counted]
        · rw [spaced, if_neg skips, if_pos rfl, words_cons_skip counted, opened]
      · rw [spaced, if_neg skips, if_neg Bool.false_ne_true, opened, leadingWord_cons_skip counted]
        cases found : words counts text with
        | nil =>
          rw [found] at ends
          have none : tail = [] := ends.elim id fun other => absurd rfl other.2
          exact ⟨[sep], .inr rfl, by rw [none]; rfl⟩
        | cons word rest =>
          refine ⟨tail, ends.imp_right And.left, ?_⟩
          rw [List.map_cons, intercalate_cons, List.flatMap_map]
          simp

variable {counts} {image} {sep}

theorem joined_concat {pieces : List (List α)} (wordly : ∀ word ∈ pieces, Wordly counts word)
    (some : pieces ≠ []) :
    ∃ start c, counts c = true ∧
      [sep].intercalate (pieces.map (List.map image)) = start ++ [image c] := by
  induction pieces with
  | nil => exact absurd rfl some
  | cons word rest ih =>
    cases rest with
    | nil =>
      obtain ⟨full, counted⟩ := wordly word List.mem_cons_self
      obtain ⟨start, c, rfl⟩ := (List.eq_nil_or_concat word).resolve_left full
      refine ⟨start.map image, c, counted c (by simp), ?_⟩
      simp
    | cons next rest =>
      obtain ⟨start, c, counted, ended⟩ :=
        ih (fun word member => wordly word (List.mem_cons_of_mem _ member)) (List.cons_ne_nil _ _)
      refine ⟨word.map image ++ [sep] ++ start, c, counted, ?_⟩
      rw [List.map_cons, List.map_cons, List.intercalate_cons_cons, ← List.map_cons, ended]
      simp

theorem spaced_trim [DecidableEq β] (apart : ∀ c, counts c = true → image c ≠ sep)
    (text : List α) :
    (spaced counts image sep true text).rdropWhile (· = sep) =
      [sep].intercalate ((words counts text).map (List.map image)) := by
  obtain ⟨⟨tail, ends, spelled⟩, -⟩ := spaced_eq counts image sep text
  rw [spelled]
  by_cases found : words counts text = []
  · have none : tail = [] := ends.elim id fun other => absurd found other.2
    rw [found, none]
    rfl
  · obtain ⟨start, c, counted, joined⟩ := @joined_concat α β counts image sep _
      (fun word member => wordly_of_mem_words member) found
    have kept : (start ++ [image c]).rdropWhile (· = sep) = start ++ [image c] := by
      apply List.rdropWhile_concat_neg
      rw [decide_eq_true_eq]
      exact apart c counted
    rw [joined]
    obtain rfl | ⟨rfl, -⟩ := ends
    · rw [List.append_nil, kept]
    · rw [List.rdropWhile_concat, if_pos (decide_eq_true rfl), kept]

theorem append_cons_eq_iff {sep : α} {a b c d : List α} :
    a ++ sep :: b = c ++ sep :: d ↔ (a = c ∧ b = d) ∨
      (∃ t, c = a ++ sep :: t ∧ b = t ++ sep :: d) ∨ ∃ t, a = c ++ sep :: t ∧ d = t ++ sep :: b := by
  constructor
  · intro same
    obtain ⟨t, cut, rest⟩ | ⟨t, cut, rest⟩ := List.append_eq_append_iff.mp same
    · cases t with
      | nil =>
        rw [List.append_nil] at cut
        exact .inl ⟨cut.symm, List.tail_eq_of_cons_eq rest⟩
      | cons x t =>
        obtain ⟨rfl, tail⟩ := List.cons.inj rest
        exact .inr (.inl ⟨t, cut, tail⟩)
    · cases t with
      | nil =>
        rw [List.append_nil] at cut
        exact .inl ⟨cut, (List.tail_eq_of_cons_eq rest).symm⟩
      | cons x t =>
        obtain ⟨rfl, tail⟩ := List.cons.inj rest
        exact .inr (.inr ⟨t, cut, tail⟩)
  · rintro (⟨rfl, rfl⟩ | ⟨t, rfl, rfl⟩ | ⟨t, rfl, rfl⟩)
    · rfl
    · rw [List.append_assoc, List.cons_append]
    · rw [List.append_assoc, List.cons_append]

end Words

end Tomb.Lib

/-! Texts cut at a separator, and what it means for the pieces of one text to begin those of
another. -/
namespace Tomb.Lib

namespace Text

variable {α : Type} [BEq α] [LawfulBEq α] (sep : α)

theorem splitOn_injective {a b : List α} (same : a.splitOn sep = b.splitOn sep) : a = b := by
  rw [← @List.intercalate_splitOn α a _ _ sep, same, List.intercalate_splitOn]

omit [BEq α] [LawfulBEq α] in
theorem intercalate_append {pieces more : List (List α)} (some : pieces ≠ []) (others : more ≠ []) :
    [sep].intercalate (pieces ++ more) =
      [sep].intercalate pieces ++ sep :: [sep].intercalate more := by
  induction pieces with
  | nil => exact absurd rfl some
  | cons piece rest ih =>
    cases rest with
    | nil =>
      rw [List.singleton_append, List.intercalate_cons_of_ne_nil others, List.intercalate_singleton,
        List.append_assoc, List.singleton_append]
    | cons next rest =>
      rw [List.cons_append, List.intercalate_cons_of_ne_nil (by simp),
        ih (List.cons_ne_nil _ _), List.intercalate_cons_of_ne_nil (List.cons_ne_nil _ _)]
      simp only [List.append_assoc]

omit [BEq α] [LawfulBEq α] in
theorem mem_intercalate {pieces : List (List α)} {c : α} (member : c ∈ [sep].intercalate pieces) :
    c = sep ∨ ∃ piece ∈ pieces, c ∈ piece := by
  induction pieces with
  | nil => cases member
  | cons piece rest ih =>
    cases rest with
    | nil =>
      rw [List.intercalate_singleton] at member
      exact .inr ⟨piece, List.mem_cons_self, member⟩
    | cons next rest =>
      rw [List.intercalate_cons_of_ne_nil (List.cons_ne_nil _ _), List.mem_append,
        List.mem_append] at member
      rcases member with (here | between) | later
      · exact .inr ⟨piece, List.mem_cons_self, here⟩
      · exact .inl (List.mem_singleton.mp between)
      · exact (ih later).imp_right fun ⟨piece, listed, found⟩ =>
          ⟨piece, List.mem_cons_of_mem _ listed, found⟩

theorem splitOn_append_iff {a b : List α} :
    (∃ more, more ≠ [] ∧ b.splitOn sep = a.splitOn sep ++ more) ↔
      ∃ rest, b = a ++ sep :: rest := by
  constructor
  · rintro ⟨more, others, pieces⟩
    refine ⟨[sep].intercalate more, ?_⟩
    rw [← @List.intercalate_splitOn α b _ _ sep, pieces,
      intercalate_append sep (List.splitOn_ne_nil sep a) others, List.intercalate_splitOn]
  · rintro ⟨rest, rfl⟩
    exact ⟨rest.splitOn sep, List.splitOn_ne_nil sep rest, List.splitOn_append_cons_self a rest⟩

end Text

end Tomb.Lib
