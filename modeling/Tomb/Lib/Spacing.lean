import Mathlib.Data.List.Chain
import Mathlib.Data.List.DropRight
import Mathlib.Data.List.Infix

/-! The words of a text, and the texts in which single blanks stand between the words. -/
namespace Tomb.Lib.Text

variable {α : Type}

section Words

def words [DecidableEq α] (gap : α → Bool) (text : List α) : List (List α) :=
  (text.splitOnP gap).filter (· ≠ [])

variable {gap : α → Bool}

theorem mem_splitOnP {text piece : List α} (member : piece ∈ text.splitOnP gap) :
    ∀ c ∈ piece, c ∈ text ∧ gap c = false := by
  induction text generalizing piece with
  | nil =>
    rw [List.splitOnP_nil, List.mem_singleton] at member
    rw [member]
    exact fun _ none => absurd none List.not_mem_nil
  | cons c text ih =>
    rw [List.splitOnP_cons_eq_if_modifyHead] at member
    have later {piece : List α} (member : piece ∈ text.splitOnP gap) :
        ∀ d ∈ piece, d ∈ c :: text ∧ gap d = false := fun d inside =>
      ⟨List.mem_cons_of_mem _ (ih member d inside).1, (ih member d inside).2⟩
    split at member
    · rcases List.mem_cons.mp member with first | rest
      · rw [first]
        exact fun _ none => absurd none List.not_mem_nil
      · exact later rest
    · rename_i visible
      cases pieces : text.splitOnP gap with
      | nil => exact absurd pieces (List.splitOnP_ne_nil gap text)
      | cons first rest =>
        rw [pieces, List.modifyHead_cons] at member
        rcases List.mem_cons.mp member with same | member
        · rw [same]
          intro d inside
          rcases List.mem_cons.mp inside with rfl | inside
          · exact ⟨List.mem_cons_self, Bool.eq_false_iff.mpr visible⟩
          · exact later (pieces ▸ List.mem_cons_self) d inside
        · exact later (pieces ▸ List.mem_cons_of_mem _ member)

theorem mem_words [DecidableEq α] {text word : List α} (member : word ∈ words gap text) :
    word ≠ [] ∧ ∀ c ∈ word, c ∈ text ∧ gap c = false := by
  obtain ⟨piece, some⟩ := List.mem_filter.mp member
  exact ⟨of_decide_eq_true some, mem_splitOnP piece⟩

theorem splitOnP_map {f : α → α} (keeps : ∀ c, gap (f c) = false → f c = c) (text : List α) :
    (text.map f).splitOnP gap = text.splitOnP fun c => gap (f c) := by
  induction text with
  | nil => rfl
  | cons c text ih =>
    rw [List.map_cons, List.splitOnP_cons_eq_if_modifyHead, List.splitOnP_cons_eq_if_modifyHead, ih]
    cases separates : gap (f c) with
    | true => rfl
    | false => rw [keeps c separates]

theorem splitOnP_congr {other : α → Bool} {text : List α} (agree : ∀ c ∈ text, gap c = other c) :
    text.splitOnP gap = text.splitOnP other := by
  induction text with
  | nil => rfl
  | cons c text ih =>
    obtain ⟨here, agree⟩ := List.forall_mem_cons.mp agree
    rw [List.splitOnP_cons_eq_if_modifyHead, List.splitOnP_cons_eq_if_modifyHead, ih agree, here]

end Words

section Trimming

variable {p : α → Bool} {text : List α}

theorem dropWhile_of_head? (stays : ∀ c, text.head? = some c → p c = false) :
    text.dropWhile p = text := by
  cases text with
  | nil => rfl
  | cons c text => rw [List.dropWhile_cons_of_neg (by simp [stays c rfl])]

theorem rdropWhile_of_getLast? (stays : ∀ c, text.getLast? = some c → p c = false) :
    text.rdropWhile p = text := by
  rw [List.rdropWhile_eq_self_iff]
  intro some picked
  rw [stays _ (List.getLast?_eq_some_getLast some)] at picked
  cases picked

theorem not_head?_dropWhile {c : α} (first : (text.dropWhile p).head? = some c) : p c = false := by
  have none := List.head?_dropWhile_not p text
  rw [first] at none
  simpa using none

theorem not_getLast?_rdropWhile {c : α} (last : (text.rdropWhile p).getLast? = some c) :
    p c = false := by
  rw [List.rdropWhile, List.getLast?_reverse] at last
  exact not_head?_dropWhile last

theorem head?_dropWhile_iff {c : α} (stays : p c = false) :
    (text.dropWhile p).head? = some c ↔
      ∃ before rest, text = before ++ c :: rest ∧ ∀ d ∈ before, p d = true := by
  constructor
  · intro first
    obtain ⟨rest, split⟩ := List.head?_eq_some_iff.mp first
    refine ⟨text.takeWhile p, rest, ?_, fun d member => List.mem_takeWhile_imp member⟩
    rw [← split, List.takeWhile_append_dropWhile]
  · rintro ⟨before, rest, rfl, gone⟩
    rw [List.dropWhile_append_of_pos gone, List.dropWhile_cons_of_neg (by simp [stays])]
    rfl

theorem getLast?_rdropWhile_iff {c : α} (stays : p c = false) :
    (text.rdropWhile p).getLast? = some c ↔
      ∃ rest behind, text = rest ++ c :: behind ∧ ∀ d ∈ behind, p d = true := by
  rw [List.rdropWhile, List.getLast?_reverse, head?_dropWhile_iff stays]
  constructor
  · rintro ⟨before, rest, split, gone⟩
    refine ⟨rest.reverse, before.reverse, ?_, fun d member => gone d (List.mem_reverse.mp member)⟩
    rw [← List.reverse_reverse text, split]
    simp
  · rintro ⟨rest, behind, rfl, gone⟩
    refine ⟨behind.reverse, rest.reverse, ?_, fun d member => gone d (List.mem_reverse.mp member)⟩
    simp

theorem head?_of_begins {part : List α} {c : α} (begins : part <+: text)
    (first : part.head? = some c) : text.head? = some c := by
  obtain ⟨more, rfl⟩ := begins
  rw [List.head?_append, first, Option.some_or]

theorem head?_rdropWhile_iff {c : α} (stays : p c = false) :
    (text.rdropWhile p).head? = some c ↔ text.head? = some c := by
  refine ⟨head?_of_begins (List.rdropWhile_prefix p text), fun first => ?_⟩
  cases left : text.rdropWhile p with
  | nil =>
    rw [List.rdropWhile_eq_nil_iff] at left
    cases stays.symm.trans (left c (List.mem_of_mem_head? first))
  | cons d rest =>
    have same : text.head? = some d :=
      head?_of_begins (left ▸ List.rdropWhile_prefix p text) List.head?_cons
    exact same.symm.trans first

end Trimming

/-- Nothing separates but blanks, and no two of them are neighbours. -/
structure Spaced (gap : α → Bool) (blank : α) (text : List α) : Prop where
  blanks : ∀ c ∈ text, gap c = true → c = blank
  single : text.IsChain fun c d => ¬ (c = blank ∧ d = blank)

section Spaced

variable {gap : α → Bool} {blank : α}

theorem Spaced.within {part text : List α} (spaced : Spaced gap blank text)
    (inside : part <:+: text) : Spaced gap blank part :=
  ⟨fun c member => spaced.blanks c (inside.subset member),
    List.IsChain.infix spaced.single inside⟩

theorem Spaced.nil : Spaced gap blank [] := ⟨nofun, .nil⟩

theorem spaced_word {word : List α} (isGap : gap blank = true)
    (visible : ∀ c ∈ word, gap c = false) : Spaced gap blank word := by
  refine ⟨fun c member separates => ?_, ?_⟩
  · cases separates.symm.trans (visible c member)
  · refine List.isChain_iff_forall_rel_of_append_cons_cons.mpr
      fun c d before behind split both => ?_
    have member : c ∈ word := split ▸ List.mem_append_right _ List.mem_cons_self
    rw [both.1] at member
    cases isGap.symm.trans (visible blank member)

theorem head?_intercalate {word : List α} (some : word ≠ []) (more : List (List α)) :
    ([blank].intercalate (word :: more)).head? = word.head? := by
  cases more with
  | nil => rw [List.intercalate_singleton]
  | cons next more =>
    rw [List.intercalate_cons_of_ne_nil (List.cons_ne_nil _ _), List.append_assoc,
      List.head?_append_of_ne_nil _ some]

theorem getLast?_intercalate {word : List α} (some : word ≠ []) (more : List (List α)) :
    ([blank].intercalate (more ++ [word])).getLast? = word.getLast? := by
  induction more with
  | nil => rw [List.nil_append, List.intercalate_singleton]
  | cons next more ih =>
    have others : more ++ [word] ≠ [] := by simp
    have later : [blank].intercalate (more ++ [word]) ≠ [] := by
      intro none
      rw [none, List.getLast?_nil] at ih
      exact some (List.getLast?_eq_none_iff.mp ih.symm)
    rw [List.cons_append, List.intercalate_cons_of_ne_nil others,
      List.getLast?_append_of_ne_nil _ later, ih]

theorem spaced_intercalate {words : List (List α)} (isGap : gap blank = true)
    (proper : ∀ word ∈ words, word ≠ [] ∧ ∀ c ∈ word, gap c = false) :
    Spaced gap blank ([blank].intercalate words) := by
  induction words with
  | nil => exact Spaced.nil
  | cons word words ih =>
    obtain ⟨⟨some, visible⟩, proper⟩ := List.forall_mem_cons.mp proper
    have here := spaced_word isGap visible
    cases words with
    | nil =>
      rw [List.intercalate_singleton]
      exact here
    | cons next more =>
      have later := ih proper
      have notBlank {c : α} {word : List α} (visible : ∀ c ∈ word, gap c = false)
          (member : c ∈ word) : c ≠ blank := by
        rintro rfl
        cases isGap.symm.trans (visible c member)
      obtain ⟨nextSome, nextVisible⟩ := proper next List.mem_cons_self
      rw [List.intercalate_cons_of_ne_nil (List.cons_ne_nil _ _), List.append_assoc]
      refine ⟨fun c member separates => ?_, ?_⟩
      · rcases List.mem_append.mp member with inside | member
        · exact here.blanks c inside separates
        · rcases List.mem_cons.mp member with same | inside
          · exact same
          · exact later.blanks c inside separates
      · refine List.IsChain.append here.single (later.single.cons fun d first both => ?_)
          fun c last d _ both => ?_
        · rw [head?_intercalate nextSome] at first
          exact notBlank nextVisible (List.mem_of_mem_head? first) both.2
        · exact notBlank visible (List.mem_of_getLast? last) both.1

section Pieces

variable [DecidableEq α]

theorem nil_mem_tail_splitOn {text : List α}
    (single : text.IsChain fun c d => ¬ (c = blank ∧ d = blank))
    (empty : [] ∈ (text.splitOn blank).tail) : text.getLast? = some blank := by
  induction text with
  | nil => cases empty
  | cons c text ih =>
    have later (empty : [] ∈ (text.splitOn blank).tail) : (c :: text).getLast? = some blank := by
      have last := ih single.tail empty
      rw [List.getLast?_cons, last]
      rfl
    rw [List.splitOn_cons_eq_if_modifyHead] at empty
    split at empty
    · rename_i here
      cases beq_iff_eq.mp here
      rw [List.tail_cons] at empty
      cases text with
      | nil => rfl
      | cons d text =>
        by_cases tailed : [] ∈ ((d :: text).splitOn blank).tail
        · exact later tailed
        · have other : d ≠ blank := fun same => single.rel_head? rfl ⟨rfl, same⟩
          rw [List.splitOn_cons_eq_if_modifyHead, if_neg (by simpa using other)] at empty tailed
          cases pieces : text.splitOn blank with
          | nil => exact absurd pieces (List.splitOn_ne_nil blank text)
          | cons first rest =>
            rw [pieces, List.modifyHead_cons] at empty tailed
            rcases List.mem_cons.mp empty with none | behind
            · cases none
            · exact absurd behind tailed
    · refine later ?_
      cases pieces : text.splitOn blank with
      | nil => exact absurd pieces (List.splitOn_ne_nil blank text)
      | cons first rest =>
        rw [pieces] at empty
        exact empty

theorem intercalate_words {text : List α} (isGap : gap blank = true)
    (spaced : Spaced gap blank text) (first : text.head? ≠ some blank)
    (last : text.getLast? ≠ some blank) : [blank].intercalate (words gap text) = text := by
  have same : text.splitOnP gap = text.splitOn blank := by
    rw [List.splitOn_eq_splitOnP]
    refine splitOnP_congr fun c member => ?_
    rw [Bool.eq_iff_iff, beq_iff_eq]
    exact ⟨spaced.blanks c member, fun same => same ▸ isGap⟩
  rw [words, same]
  cases text with
  | nil => rfl
  | cons c text =>
    have whole : ((c :: text).splitOn blank).filter (· ≠ []) = (c :: text).splitOn blank := by
      refine List.filter_eq_self.mpr fun piece member => ?_
      rw [decide_eq_true_eq]
      rintro rfl
      have other : c ≠ blank := fun same => first (same ▸ rfl)
      refine last (nil_mem_tail_splitOn spaced.single ?_)
      rw [List.splitOn_cons_eq_if_modifyHead, if_neg (by simpa using other)] at member ⊢
      cases pieces : text.splitOn blank with
      | nil => exact absurd pieces (List.splitOn_ne_nil blank text)
      | cons first rest =>
        rw [pieces, List.modifyHead_cons] at member
        exact (List.mem_cons.mp member).resolve_left nofun
    rw [whole, List.intercalate_splitOn]

end Pieces

end Spaced

end Tomb.Lib.Text
