import Tomb.Lib.Spacing
import Tomb.Grimoire.ExternalStorage.SyncPriority

/-! The names under which library files are written out: what is made of a name that somebody gave,
and which names a portable volume keeps as they are. -/
namespace Tomb.Grimoire.ExternalStorage.PathNaming
open Tomb.Lib

def illegalChars : List Char := ['/', '\\', ':', '*', '?', '"', '<', '>', '|']

def reservedNames : List (List Char) :=
  ["CON", "PRN", "AUX", "NUL", "COM1", "COM2", "COM3", "COM4", "COM5", "COM6", "COM7", "COM8",
    "COM9", "LPT1", "LPT2", "LPT3", "LPT4", "LPT5", "LPT6", "LPT7", "LPT8", "LPT9"].map
    String.toList

def maxSegmentLen : Nat := 200

def isControl (c : Char) : Bool := c.toNat < 0x20 || (0x7F ≤ c.toNat && c.toNat ≤ 0x9F)

def isLegal (c : Char) : Bool := !(illegalChars.contains c || isControl c)

/-- No letter outside ASCII has an upper case that is made of the letters of these names. -/
def isReserved (name : List Char) : Bool := reservedNames.contains (name.map Char.toUpper)

def isDot (c : Char) : Bool := c = '.'

def trimMatches (p : Char → Bool) (text : List Char) : List Char := (text.dropWhile p).rdropWhile p

def replaced (raw : List Char) : List Char :=
  raw.map fun c => if illegalChars.contains c || isControl c then ' ' else c

def collapsed (raw : List Char) : List Char :=
  [' '].intercalate (Text.words Text.isWhiteSpace (replaced raw))

def trimmed (raw : List Char) : List Char :=
  let trimmed := trimMatches isDot (trimMatches Text.isWhiteSpace (collapsed raw))
  if Sqlite.byteLength trimmed > maxSegmentLen then
    ((trimmed.take maxSegmentLen).rdropWhile Text.isWhiteSpace).rdropWhile isDot
  else trimmed

@[grind =] def sanitizeSegment (raw : List Char) : List Char :=
  if (trimmed raw).isEmpty || isReserved (trimmed raw) then "unknown".toList else trimmed raw

def segments (raw : List Char) : List (List Char) :=
  ((raw.splitOnP fun c => c = '/' || c = '\\').map (trimMatches Text.isWhiteSpace)).filter (· ≠ [])

def sanitizeSubpath (raw : List Char) : List Char :=
  ['/'].intercalate ((segments raw).map sanitizeSegment)

def joinPath (root sub : List Char) : List Char :=
  if sub.head? = some '/' then sub
  else if root = [] ∨ root.getLast? = some '/' then root ++ sub
  else root ++ '/' :: sub

/-! ## Portable names -/

def utf16Length (text : List Char) : Nat :=
  (text.map fun c => if c.toNat < 0x10000 then 1 else 2).sum

def namesDevice (name : List Char) : Bool := isReserved (name.takeWhile (!isDot ·))

structure Portable (name : List Char) : Prop where
  nonempty : name ≠ []
  legal : ∀ c ∈ name, isLegal c = true
  notDots : name ≠ ['.'] ∧ name ≠ ['.', '.']
  start : name.head? ≠ some ' ' ∧ name.head? ≠ some '.'
  finish : name.getLast? ≠ some ' ' ∧ name.getLast? ≠ some '.'
  device : namesDevice name = false
  units : utf16Length name ≤ 255

/-- The name under which a volume of FAT or exFAT keeps a file, if it takes the name. -/
def fatStored (name : List Char) : Option (List Char) :=
  if name.all isLegal && !namesDevice name && utf16Length name ≤ 255 then
    match (name.rdropWhile fun c => c = ' ' || c = '.').dropWhile (· = ' ') with
    | [] => none
    | stored => some stored
  else none

/-- A sanitized name is portable, and is left as it is when it is sanitized again. -/
structure SegmentLaw (raw : List Char) : Prop where
  portable : Portable (sanitizeSegment raw)
  fixed : sanitizeSegment (sanitizeSegment raw) = sanitizeSegment raw

/-- A sanitized sub-path leads from a root into it, and a volume keeps its names as they are. -/
def SubpathLaw (root raw : List Char) : Prop :=
  ∃ names : List (List Char),
    components (joinPath root (sanitizeSubpath raw)) = components root ++ names.map .normal ∧
    ∀ name ∈ names, fatStored name = some name

/-! ## The names that come out well -/

@[grind =] def joined (raw : List Char) : List Char :=
  [' '].intercalate (Text.words (fun c => Text.isWhiteSpace c || !isLegal c) raw)

def bare (raw : List Char) : List Char := trimMatches isDot (joined raw)

@[grind =] def kept (raw : List Char) : List Char :=
  if maxSegmentLen < Sqlite.byteLength (bare raw) then
    (((bare raw).take maxSegmentLen).rdropWhile Text.isWhiteSpace).rdropWhile isDot
  else bare raw

def Dots (text : List Char) : Prop := ∀ c ∈ text, isDot c = true

/-- The text begins with a word of dots and goes on behind it. -/
def BeginsWithDots (text : List Char) : Prop := ∃ dots rest, text = dots ++ ' ' :: rest ∧ Dots dots

/-- The text ends with a word of dots and has something before it. -/
def EndsWithDots (text : List Char) : Prop := ∃ rest dots, text = rest ++ ' ' :: dots ∧ Dots dots

/-- No word of dots stands at an end, what fits has no more than 255 units, and it does not go on
behind the name of a device and a dot. -/
structure Clean (raw : List Char) : Prop where
  start : ¬ BeginsWithDots (joined raw)
  finish : Sqlite.byteLength (bare raw) ≤ maxSegmentLen → ¬ EndsWithDots (joined raw)
  cut : maxSegmentLen < Sqlite.byteLength (bare raw) →
    ¬ EndsWithDots (((bare raw).take maxSegmentLen).rdropWhile Text.isWhiteSpace)
  device : '.' ∈ kept raw → namesDevice (kept raw) = false
  units : utf16Length (kept raw) ≤ 255

section Texts

open Text (Spaced isWhiteSpace)

theorem collapsed_eq (raw : List Char) : collapsed raw = joined raw := by
  have gaps : (fun c => isWhiteSpace (if illegalChars.contains c || isControl c then ' ' else c)) =
      fun c => isWhiteSpace c || !isLegal c := by
    funext c
    rw [isLegal, Bool.not_not]
    split
    · rename_i illegal
      rw [illegal, Bool.or_true]
      decide
    · rename_i legal
      rw [Bool.eq_false_iff.mpr legal, Bool.or_false]
  rw [collapsed, joined, Text.words, Text.words, replaced, Text.splitOnP_map fun c visible => ?_,
    gaps]
  split at visible
  · cases visible
  · rename_i legal
    exact if_neg legal

variable {raw : List Char}

theorem word_visible {word : List Char}
    (member : word ∈ Text.words (fun c => isWhiteSpace c || !isLegal c) raw) :
    word ≠ [] ∧ ∀ c ∈ word, isWhiteSpace c = false ∧ isLegal c = true := by
  obtain ⟨some, visible⟩ := Text.mem_words member
  refine ⟨some, fun c inside => ?_⟩
  have both := (visible c inside).2
  rw [Bool.or_eq_false_iff, Bool.not_eq_false'] at both
  exact both

theorem spaced_joined (raw : List Char) : Spaced isWhiteSpace ' ' (joined raw) :=
  Text.spaced_intercalate (by decide) fun _ member =>
    ⟨(word_visible member).1, fun c inside => ((word_visible member).2 c inside).1⟩

theorem legal_joined {c : Char} (member : c ∈ joined raw) : isLegal c = true := by
  rcases Text.mem_intercalate ' ' member with rfl | ⟨word, listed, inside⟩
  · decide
  · exact ((word_visible listed).2 c inside).2

theorem head?_joined {c : Char} (first : (joined raw).head? = some c) : isWhiteSpace c = false := by
  unfold joined at first
  cases words : Text.words (fun c => isWhiteSpace c || !isLegal c) raw with
  | nil =>
    rw [words] at first
    cases first
  | cons word more =>
    have visible := word_visible (words ▸ List.mem_cons_self)
    rw [words, Text.head?_intercalate visible.1] at first
    exact (visible.2 c (List.mem_of_mem_head? first)).1

theorem getLast?_joined {c : Char} (last : (joined raw).getLast? = some c) :
    isWhiteSpace c = false := by
  unfold joined at last
  rcases List.eq_nil_or_concat' (Text.words (fun c => isWhiteSpace c || !isLegal c) raw) with
    words | ⟨more, word, words⟩
  · rw [words] at last
    cases last
  · have visible := word_visible (words ▸ List.mem_append_right _ List.mem_cons_self)
    rw [words, Text.getLast?_intercalate visible.1] at last
    exact (visible.2 c (List.mem_of_getLast? last)).1

theorem trimMatches_self {p : Char → Bool} {text : List Char}
    (first : ∀ c, text.head? = some c → p c = false)
    (last : ∀ c, text.getLast? = some c → p c = false) : trimMatches p text = text := by
  rw [trimMatches, Text.dropWhile_of_head? first, Text.rdropWhile_of_getLast? last]

theorem trimmed_eq (raw : List Char) : trimmed raw = kept raw := by
  have same : trimMatches isWhiteSpace (collapsed raw) = joined raw := by
    rw [collapsed_eq]
    exact trimMatches_self (fun _ first => head?_joined first) fun _ last => getLast?_joined last
  rw [trimmed, same]
  rfl

theorem bare_within (raw : List Char) : bare raw <:+: joined raw :=
  (List.rdropWhile_prefix _ _).isInfix.trans (List.dropWhile_suffix _).isInfix

theorem kept_begins (raw : List Char) : kept raw <+: bare raw := by
  unfold kept
  split
  · exact ((List.rdropWhile_prefix _ _).trans (List.rdropWhile_prefix _ _)).trans
      (List.take_prefix _ _)
  · exact List.prefix_rfl

theorem kept_within (raw : List Char) : kept raw <:+: joined raw :=
  (kept_begins raw).isInfix.trans (bare_within raw)

theorem spaced_kept (raw : List Char) : Spaced isWhiteSpace ' ' (kept raw) :=
  (spaced_joined raw).within (kept_within raw)

theorem legal_kept {c : Char} (member : c ∈ kept raw) : isLegal c = true :=
  legal_joined ((kept_within raw).subset member)

theorem head?_bare {c : Char} (first : (bare raw).head? = some c) : isDot c = false :=
  Text.not_head?_dropWhile (Text.head?_of_begins (List.rdropWhile_prefix _ _) first)

theorem head?_kept {c : Char} (first : (kept raw).head? = some c) : isDot c = false :=
  head?_bare (Text.head?_of_begins (kept_begins raw) first)

theorem getLast?_kept {c : Char} (last : (kept raw).getLast? = some c) : isDot c = false := by
  unfold kept at last
  split at last <;> exact Text.not_getLast?_rdropWhile last

theorem length_le_byteLength (text : List Char) : text.length ≤ Sqlite.byteLength text := by
  unfold Sqlite.byteLength
  induction text with
  | nil => exact le_rfl
  | cons c text ih =>
    have one := c.utf8Size_pos
    rw [List.map_cons, List.sum_cons, List.length_cons]
    omega

theorem length_kept (raw : List Char) : (kept raw).length ≤ maxSegmentLen := by
  unfold kept
  split
  · refine le_trans (List.IsPrefix.length_le ?_) (List.length_take_le maxSegmentLen (bare raw))
    exact (List.rdropWhile_prefix _ _).trans (List.rdropWhile_prefix _ _)
  · rename_i short
    exact le_trans (length_le_byteLength _) (Nat.le_of_not_lt short)

theorem beginsWithDots_iff (raw : List Char) :
    (bare raw).head? = some ' ' ↔ BeginsWithDots (joined raw) := by
  rw [bare, trimMatches, Text.head?_rdropWhile_iff (by decide),
    Text.head?_dropWhile_iff (by decide)]
  rfl

theorem head?_kept_iff (raw : List Char) :
    (kept raw).head? = some ' ' ↔ BeginsWithDots (joined raw) := by
  rw [← beginsWithDots_iff]
  refine ⟨Text.head?_of_begins (kept_begins raw), fun first => ?_⟩
  unfold kept
  split
  · rename_i long
    rw [Text.head?_rdropWhile_iff (by decide)]
    obtain ⟨rest, split⟩ := List.head?_eq_some_iff.mp first
    cases rest with
    | nil =>
      rw [split] at long
      exact absurd long (by decide)
    | cons d rest =>
      have spaced := (spaced_joined raw).within (bare_within raw)
      rw [split] at spaced
      have visible : isWhiteSpace d = false := by
        rw [Bool.eq_false_iff]
        intro gap
        exact spaced.single.rel_head? rfl
          ⟨rfl, spaced.blanks d (List.mem_cons_of_mem _ List.mem_cons_self) gap⟩
      rw [split, maxSegmentLen, List.take_succ_cons, List.take_succ_cons]
      cases left : (' ' :: d :: rest.take 198).rdropWhile isWhiteSpace with
      | nil =>
        rw [List.rdropWhile_eq_nil_iff] at left
        cases visible.symm.trans (left d (List.mem_cons_of_mem _ List.mem_cons_self))
      | cons c more =>
        have first : (c :: more).head? = some c := List.head?_cons
        have same := Text.head?_of_begins (left ▸ List.rdropWhile_prefix isWhiteSpace _) first
        rw [List.head?_cons] at same
        exact same.symm
  · exact first

theorem endsWithDots_dropWhile_iff (text : List Char) :
    EndsWithDots (text.dropWhile isDot) ↔ EndsWithDots text := by
  constructor
  · rintro ⟨rest, dots, split, allDots⟩
    refine ⟨text.takeWhile isDot ++ rest, dots, ?_, allDots⟩
    rw [List.append_assoc, ← split, List.takeWhile_append_dropWhile]
  · rintro ⟨rest, dots, rfl, allDots⟩
    rw [List.dropWhile_append]
    split
    · exact ⟨[], dots, List.dropWhile_cons_of_neg (by decide), allDots⟩
    · exact ⟨_, dots, rfl, allDots⟩

theorem getLast?_kept_iff (raw : List Char) : (kept raw).getLast? = some ' ' ↔
    if maxSegmentLen < Sqlite.byteLength (bare raw) then
      EndsWithDots (((bare raw).take maxSegmentLen).rdropWhile isWhiteSpace)
    else EndsWithDots (joined raw) := by
  unfold kept
  split
  · exact Text.getLast?_rdropWhile_iff (by decide)
  · rw [← endsWithDots_dropWhile_iff]
    exact Text.getLast?_rdropWhile_iff (by decide)

theorem edges_iff (raw : List Char) :
    ((kept raw).head? ≠ some ' ' ∧ (kept raw).getLast? ≠ some ' ') ↔
      ¬ BeginsWithDots (joined raw) ∧
      (Sqlite.byteLength (bare raw) ≤ maxSegmentLen → ¬ EndsWithDots (joined raw)) ∧
      (maxSegmentLen < Sqlite.byteLength (bare raw) →
        ¬ EndsWithDots (((bare raw).take maxSegmentLen).rdropWhile isWhiteSpace)) := by
  rw [Ne, head?_kept_iff, Ne, getLast?_kept_iff]
  refine and_congr_right fun _ => ?_
  split
  · rename_i long
    exact ⟨fun ends => ⟨fun short => absurd short (Nat.not_le_of_lt long), fun _ => ends⟩,
      fun both => both.2 long⟩
  · rename_i short
    exact ⟨fun ends => ⟨fun _ => ends, fun long => absurd long short⟩,
      fun both => both.1 (Nat.le_of_not_lt short)⟩

theorem sanitizeSegment_self {name : List Char} (some : name ≠ [])
    (legal : ∀ c ∈ name, isLegal c = true) (spaced : Spaced isWhiteSpace ' ' name)
    (start : name.head? ≠ Option.some ' ' ∧ name.head? ≠ Option.some '.')
    (finish : name.getLast? ≠ Option.some ' ' ∧ name.getLast? ≠ Option.some '.')
    (length : name.length ≤ maxSegmentLen) (free : isReserved name = false) :
    sanitizeSegment name = name := by
  have whole : joined name = name := by
    have gaps : name.splitOnP (fun c => isWhiteSpace c || !isLegal c) =
        name.splitOnP isWhiteSpace :=
      Text.splitOnP_congr fun c member => by rw [legal c member, Bool.not_true, Bool.or_false]
    rw [joined, Text.words, gaps]
    exact Text.intercalate_words (by decide) spaced start.1 finish.1
  have noDot {c : Char} (other : c ≠ '.') : isDot c = false := decide_eq_false other
  have first : ∀ c, name.head? = Option.some c → isDot c = false := by
    rintro c head
    exact noDot fun same => start.2 (same ▸ head)
  have last : ∀ c, name.getLast? = Option.some c → isDot c = false := by
    rintro c tail
    exact noDot fun same => finish.2 (same ▸ tail)
  have visible : ∀ c, name.getLast? = Option.some c → isWhiteSpace c = false := by
    intro c tail
    rw [Bool.eq_false_iff]
    intro gap
    exact finish.1 (spaced.blanks c (List.mem_of_getLast? tail) gap ▸ tail)
  have same : kept name = name := by
    rw [kept, bare, whole, trimMatches_self first last, List.take_of_length_le length,
      Text.rdropWhile_of_getLast? visible, Text.rdropWhile_of_getLast? last, ite_self]
  rw [sanitizeSegment, trimmed_eq, same, free, Bool.or_false, List.isEmpty_eq_false_iff.mpr some]
  rfl

end Texts

theorem utf16Length_le (text : List Char) : utf16Length text ≤ 2 * text.length := by
  unfold utf16Length
  induction text with
  | nil => exact le_rfl
  | cons c text ih =>
    rw [List.map_cons, List.sum_cons, List.length_cons]
    split <;> omega

variable {name : List Char}

theorem isReserved_plain (reserved : isReserved name = true) :
    name.length ≤ 4 ∧ ' ' ∉ name ∧ '.' ∉ name := by
  have plain : ∀ device ∈ reservedNames, device.length ≤ 4 ∧ ' ' ∉ device ∧ '.' ∉ device := by
    decide
  obtain ⟨short, noSpace, noDot⟩ := plain _ (List.contains_iff_mem.mp reserved)
  rw [List.length_map] at short
  exact ⟨short, fun member => noSpace (List.mem_map_of_mem member),
    fun member => noDot (List.mem_map_of_mem member)⟩

theorem namesDevice_of_noDot (noDot : '.' ∉ name) : namesDevice name = isReserved name := by
  have whole : name.takeWhile (!isDot ·) = name := by
    refine List.takeWhile_eq_self_iff.mpr fun c member => ?_
    rw [Bool.not_eq_true']
    exact decide_eq_false fun same => noDot (same ▸ member)
  rw [namesDevice, whole]

theorem portable_unknown : Portable "unknown".toList :=
  ⟨by decide, List.all_eq_true.mp (by decide), by decide, by decide, by decide, by decide,
    by decide⟩

/-- Only a clean name comes out portable, and it is left as it is from then on. -/
theorem clean_and_law (raw : List Char) :
    (Portable (sanitizeSegment raw) → Clean raw) ∧ (Clean raw → SegmentLaw raw) := by
  have edges := edges_iff raw
  have clean : Clean raw ↔ ((kept raw).head? ≠ some ' ' ∧ (kept raw).getLast? ≠ some ' ') ∧
      ('.' ∈ kept raw → namesDevice (kept raw) = false) ∧ utf16Length (kept raw) ≤ 255 := by
    rw [edges]
    exact ⟨fun clean => ⟨⟨clean.start, clean.finish, clean.cut⟩, clean.device, clean.units⟩,
      fun both => ⟨both.1.1, both.1.2.1, both.1.2.2, both.2.1, both.2.2⟩⟩
  rw [clean]
  cases replaced : (kept raw).isEmpty || isReserved (kept raw) with
  | true =>
    have sanitized : sanitizeSegment raw = "unknown".toList := by
      rw [sanitizeSegment, trimmed_eq, replaced, if_pos rfl]
    have law : SegmentLaw raw := by
      refine ⟨sanitized ▸ portable_unknown, ?_⟩
      rw [sanitized]
      decide
    refine ⟨fun _ => ?_, fun _ => law⟩
    rcases Bool.or_eq_true _ _ ▸ replaced with none | reserved
    · rw [List.isEmpty_iff.mp none]
      decide
    · obtain ⟨short, noSpace, noDot⟩ := isReserved_plain reserved
      refine ⟨⟨fun first => noSpace (List.mem_of_mem_head? first),
        fun last => noSpace (List.mem_of_getLast? last)⟩, fun member => absurd member noDot, ?_⟩
      exact le_trans (utf16Length_le _) (by omega)
  | false =>
    obtain ⟨some, free⟩ := Bool.or_eq_false_iff.mp replaced
    have some := List.isEmpty_eq_false_iff.mp some
    have sanitized : sanitizeSegment raw = kept raw := by
      rw [sanitizeSegment, trimmed_eq, replaced, if_neg Bool.false_ne_true]
    have noDot : (kept raw).head? ≠ Option.some '.' ∧ (kept raw).getLast? ≠ Option.some '.' :=
      ⟨fun first => absurd (head?_kept first) (by decide),
        fun last => absurd (getLast?_kept last) (by decide)⟩
    constructor
    · intro portable
      rw [sanitized] at portable
      exact ⟨⟨portable.start.1, portable.finish.1⟩, fun _ => portable.device, portable.units⟩
    · rintro ⟨⟨first, last⟩, device, units⟩
      have device : namesDevice (kept raw) = false := by
        by_cases dotted : '.' ∈ kept raw
        · exact device dotted
        · rw [namesDevice_of_noDot dotted, free]
      refine ⟨?_, ?_⟩
      · rw [sanitized]
        exact ⟨some, fun _ member => legal_kept member,
          ⟨fun same => noDot.1 (by rw [same]; rfl), fun same => noDot.1 (by rw [same]; rfl)⟩,
          ⟨first, noDot.1⟩, ⟨last, noDot.2⟩, device, units⟩
      · rw [sanitized]
        exact sanitizeSegment_self some (fun _ member => legal_kept member) (spaced_kept raw)
          ⟨first, noDot.1⟩ ⟨last, noDot.2⟩ (length_kept raw) free

theorem portable_iff (raw : List Char) : Portable (sanitizeSegment raw) ↔ Clean raw :=
  ⟨(clean_and_law raw).1, fun clean => ((clean_and_law raw).2 clean).portable⟩

/-! ## Sub-paths -/

theorem sanitized_facts (raw : List Char) : sanitizeSegment raw ≠ [] ∧
    (∀ c ∈ sanitizeSegment raw, isLegal c = true) ∧ (sanitizeSegment raw).head? ≠ some '.' ∧
      (sanitizeSegment raw).getLast? ≠ some '.' := by
  unfold sanitizeSegment
  rw [trimmed_eq]
  split
  · have unknown := portable_unknown
    exact ⟨unknown.nonempty, unknown.legal, unknown.start.2, unknown.finish.2⟩
  · rename_i named
    rw [Bool.or_eq_true, not_or, List.isEmpty_iff] at named
    exact ⟨named.1, fun _ member => legal_kept member,
      fun first => absurd (head?_kept first) (by decide),
      fun last => absurd (getLast?_kept last) (by decide)⟩

theorem sanitized_proper (raw : List Char) : isProper (sanitizeSegment raw) = true := by
  obtain ⟨some, legal, first, -⟩ := sanitized_facts raw
  refine isProper_iff.mpr ⟨?_, fun same => first (same ▸ rfl),
    fun slash => absurd (legal _ slash) (by decide), fun nul => absurd (legal _ nul) (by decide)⟩
  rw [isName, Bool.and_eq_true, decide_eq_true_eq, decide_eq_true_eq]
  exact ⟨some, fun same => first (same ▸ rfl)⟩

def subpathNames (raw : List Char) : Names where
  list := (segments raw).map sanitizeSegment
  proper := by
    intro name member
    obtain ⟨segment, -, rfl⟩ := List.mem_map.mp member
    exact sanitized_proper segment

theorem components_append_slash {root sub : List Char} (some : root ≠ []) :
    components (root ++ '/' :: sub) =
      components root ++ ((spelled sub).filter isName).map component := by
  have pieces : spelled (root ++ '/' :: sub) = spelled root ++ spelled sub :=
    List.splitOn_append_cons_self root sub
  have head : (root ++ '/' :: sub).head? = root.head? := List.head?_append_of_ne_nil _ some
  have first : (spelled root ++ spelled sub).head? = (spelled root).head? :=
    List.head?_append_of_ne_nil _ (List.splitOn_ne_nil '/' root)
  simp only [components, pieces, head, first, List.filter_append, List.map_append]
  split
  · rfl
  · split <;> rfl

theorem components_joinPath (root : List Char) (names : Names) :
    components (joinPath root names.joined) = components root ++ names.list.map .normal := by
  have normal : names.list.map component = names.list.map .normal :=
    List.map_congr_left fun name listed => component_proper (names.proper name listed)
  have pieces : ((spelled names.joined).filter isName).map component = names.list.map .normal := by
    rw [← normal]
    by_cases some : names.list = []
    · rw [names.joined_nil some, some]
      rfl
    · rw [names.spelled_joined some, List.filter_eq_self.mpr fun name listed =>
        (isProper_iff.mp (names.proper name listed)).1]
  have relative : names.joined.head? ≠ some '/' := by
    cases listed : names.list with
    | nil =>
      rw [names.joined_nil listed]
      exact nofun
    | cons name more =>
      have proper := isProper_iff.mp (names.proper name (listed ▸ List.mem_cons_self))
      have nonempty : name ≠ [] := by
        rintro rfl
        cases proper.1
      rw [Names.joined, listed, Text.head?_intercalate nonempty]
      exact fun first => proper.2.2.1 (List.mem_of_mem_head? first)
  rw [joinPath, if_neg relative]
  split
  · rename_i ends
    by_cases empty : root = []
    · rw [empty, List.nil_append]
      exact (components_relative names).trans normal
    · obtain ⟨dir, slashed⟩ := List.getLast?_eq_some_iff.mp (ends.resolve_left empty)
      have behind : root ++ names.joined = dir ++ '/' :: names.joined := by
        rw [slashed, List.append_assoc, List.singleton_append]
      rw [behind, slashed, ← pieces]
      by_cases top : dir = []
      · rw [top, List.nil_append, components_absolute rfl, named, spelled_slash]
        rfl
      · rw [components_append_slash top, components_append_slash top, List.append_assoc]
        rfl
  · rename_i plain
    rw [components_append_slash fun empty => plain (.inl empty), pieces]

theorem trim_eq_self_iff {p q : Char → Bool} {text : List Char} :
    (text.rdropWhile p).dropWhile q = text ↔
      text.rdropWhile p = text ∧ text.dropWhile q = text := by
  constructor
  · intro same
    have whole : text.rdropWhile p = text := by
      refine (List.rdropWhile_prefix p text).eq_of_length_le ?_
      nth_rewrite 1 [← same]
      exact (List.dropWhile_sublist q).length_le
    exact ⟨whole, by rwa [whole] at same⟩
  · rintro ⟨ends, starts⟩
    rw [ends, starts]

theorem fatStored_iff (some : name ≠ []) (legal : ∀ c ∈ name, isLegal c = true)
    (start : name.head? ≠ Option.some '.') (finish : name.getLast? ≠ Option.some '.') :
    fatStored name = Option.some name ↔ Portable name := by
  have stored : ((name.rdropWhile fun c => c = ' ' || c = '.').dropWhile (· = ' ')) = name ↔
      name.getLast? ≠ Option.some ' ' ∧ name.head? ≠ Option.some ' ' := by
    rw [trim_eq_self_iff]
    constructor
    · rintro ⟨ends, starts⟩
      constructor
      · intro last
        rw [← ends] at last
        exact absurd (Text.not_getLast?_rdropWhile last) (by decide)
      · intro first
        rw [← starts] at first
        exact absurd (Text.not_head?_dropWhile first) (by decide)
    · rintro ⟨last, first⟩
      refine ⟨Text.rdropWhile_of_getLast? fun c ends => ?_,
        Text.dropWhile_of_head? fun c starts => ?_⟩
      · rw [Bool.or_eq_false_iff, decide_eq_false_iff_not, decide_eq_false_iff_not]
        exact ⟨fun same => last (same ▸ ends), fun same => finish (same ▸ ends)⟩
      · exact decide_eq_false fun same => first (same ▸ starts)
  have keeps : (match (name.rdropWhile fun c => c = ' ' || c = '.').dropWhile (· = ' ') with
      | [] => none
      | stored => Option.some stored) = Option.some name ↔
        ((name.rdropWhile fun c => c = ' ' || c = '.').dropWhile (· = ' ')) = name := by
    split
    · rename_i none
      rw [none]
      exact ⟨nofun, fun empty => absurd empty.symm some⟩
    · exact Option.some_inj
  unfold fatStored
  split
  · rename_i accepted
    obtain ⟨⟨_, device⟩, units⟩ := by simpa only [Bool.and_eq_true] using accepted
    rw [keeps, stored]
    constructor
    · rintro ⟨last, first⟩
      exact ⟨some, legal, ⟨fun same => start (same ▸ rfl), fun same => start (same ▸ rfl)⟩,
        ⟨first, start⟩, ⟨last, finish⟩, by simpa using device, of_decide_eq_true units⟩
    · exact fun portable => ⟨portable.finish.1, portable.start.1⟩
  · rename_i refused
    refine ⟨nofun, fun portable => absurd ?_ refused⟩
    rw [Bool.and_eq_true, Bool.and_eq_true, List.all_eq_true, portable.device]
    exact ⟨⟨legal, rfl⟩, decide_eq_true portable.units⟩

theorem fatStored_sanitized_iff (raw : List Char) :
    fatStored (sanitizeSegment raw) = some (sanitizeSegment raw) ↔ Clean raw := by
  obtain ⟨some, legal, start, finish⟩ := sanitized_facts raw
  rw [fatStored_iff some legal start finish, portable_iff]

theorem subpathLaw_iff (root raw : List Char) :
    SubpathLaw root raw ↔ ∀ segment ∈ segments raw, Clean segment := by
  have inside := components_joinPath root (subpathNames raw)
  constructor
  · rintro ⟨names, leads, kept⟩ segment listed
    have same : (subpathNames raw).list = names := by
      have both := List.append_cancel_left (inside.symm.trans leads)
      exact List.map_injective_iff.mpr (fun _ _ same => Component.normal.inj same) both
    rw [← fatStored_sanitized_iff]
    exact kept _ (same ▸ List.mem_map_of_mem listed)
  · intro clean
    refine ⟨(subpathNames raw).list, inside, fun name listed => ?_⟩
    obtain ⟨segment, member, rfl⟩ := List.mem_map.mp listed
    exact (fatStored_sanitized_iff segment).mpr (clean segment member)

/-- Names are sanitized well just where what was given is clean. -/
theorem sanitized_well_iff (root raw : List Char) : SegmentLaw raw ∧ SubpathLaw root raw ↔
    Clean raw ∧ ∀ segment ∈ segments raw, Clean segment := by
  rw [subpathLaw_iff]
  refine and_congr_left fun _ => ?_
  exact ⟨fun law => (portable_iff raw).mp law.portable, (clean_and_law raw).2⟩

/-- The name of a device, with an extension, is left as it is. -/
theorem device_with_extension : ¬ SegmentLaw "con.mp3".toList := by
  intro law
  exact absurd law.portable.device (by decide)

end Tomb.Grimoire.ExternalStorage.PathNaming
