import Tomb.Lib.Words
import Tomb.Lib.Text
import Tomb.Grimoire.MediaBlobz.Models

/-! Which paths lie below a root: as the views compare texts, and by path components. -/
namespace Tomb.Grimoire.ExternalStorage
open Tomb.Lib

export MediaBlobz (Path)

/-- A root that does not begin with a slash is one of windows, where both separators count. -/
def isSeparator (root : List Char) (c : Char) : Bool :=
  c = '/' || (root.head? ≠ some '/' && c = '\\')

def liesBelow (root path : List Char) : Bool :=
  Sqlite.substr path 1 (Sqlite.length root) = root &&
    (Sqlite.substrLast root 1 = ['/'] ||
      Sqlite.substr path (Sqlite.length root + 1) 1 = ['/'] ||
      (Sqlite.substr root 1 1 ≠ ['/'] &&
        (Sqlite.substrLast root 1 = ['\\'] ||
          Sqlite.substr path (Sqlite.length root + 1) 1 = ['\\'])))

/-- The path goes on behind the root and a separator, which the root may end with. -/
def Below (root path : List Char) : Prop :=
  ∃ dir sep rest, isSeparator root sep = true ∧ path = dir ++ sep :: rest ∧
    (root = dir ∨ root = dir ++ [sep])

section Texts

variable {root path : List Char}

theorem isSeparator_iff {c : Char} :
    isSeparator root c = true ↔ c = '/' ∨ root.head? ≠ some '/' ∧ c = '\\' := by
  simp [isSeparator]

theorem substrLast_one_iff (noNul : '\x00' ∉ root) {c : Char} :
    Sqlite.substrLast root 1 = [c] ↔ ∃ dir, root = dir ++ [c] := by
  rw [Sqlite.substrLast, Sqlite.length, Sqlite.upToNul_eq noNul]
  constructor
  · intro last
    exact ⟨root.take (root.length - 1), by rw [← last, List.take_append_drop]⟩
  · rintro ⟨dir, rfl⟩
    simp

theorem substr_next_iff (noNul : '\x00' ∉ root) (noNul' : '\x00' ∉ path) (begins : root <+: path)
    {c : Char} : Sqlite.substr path (Sqlite.length root + 1) 1 = [c] ↔
      ∃ rest, path = root ++ c :: rest := by
  rw [Sqlite.substr, Sqlite.substrFrom, Sqlite.length, Sqlite.upToNul_eq noNul,
    Sqlite.upToNul_eq noNul', Nat.add_sub_cancel]
  obtain ⟨more, rfl⟩ := begins
  rw [List.drop_left]
  constructor
  · intro next
    cases more with
    | nil => cases next
    | cons d rest =>
      have same : d = c := by simpa using next
      exact ⟨rest, by rw [same]⟩
  · rintro ⟨rest, same⟩
    rw [List.append_cancel_left same]
    rfl

theorem substr_first_iff (noNul : '\x00' ∉ root) {c : Char} :
    Sqlite.substr root 1 1 = [c] ↔ root.head? = some c := by
  rw [Sqlite.substr, Sqlite.substrFrom, Sqlite.upToNul_eq noNul]
  cases root with
  | nil => simp
  | cons d rest => simp

theorem liesBelow_iff (noNul : '\x00' ∉ root) (noNul' : '\x00' ∉ path) :
    liesBelow root path = true ↔ Below root path := by
  have first := substr_first_iff noNul (c := '/')
  unfold liesBelow
  simp only [Bool.and_eq_true, Bool.or_eq_true, decide_eq_true_eq,
    Sqlite.substr_one_eq_iff noNul' noNul, substrLast_one_iff noNul, ne_eq, first]
  constructor
  · rintro ⟨begins, ends⟩
    have next (c : Char) := substr_next_iff noNul noNul' begins (c := c)
    rw [next, next] at ends
    have after (c : Char) (sep : isSeparator root c = true)
        (ends : (∃ dir, root = dir ++ [c]) ∨ ∃ rest, path = root ++ c :: rest) :
        Below root path := by
      rcases ends with ⟨dir, last⟩ | ⟨rest, next⟩
      · obtain ⟨rest, goes⟩ := begins
        refine ⟨dir, c, rest, sep, ?_, .inr last⟩
        rw [← goes, last, List.append_assoc, List.singleton_append]
      · exact ⟨root, c, rest, sep, next, .inl rfl⟩
    rcases ends with (last | next) | ⟨windows, ends⟩
    · exact after '/' (isSeparator_iff.mpr (.inl rfl)) (.inl last)
    · exact after '/' (isSeparator_iff.mpr (.inl rfl)) (.inr next)
    · exact after '\\' (isSeparator_iff.mpr (.inr ⟨windows, rfl⟩)) ends
  · rintro ⟨dir, sep, rest, separates, goes, whole | ends⟩
    · subst whole
      have begins : root <+: path := ⟨sep :: rest, goes.symm⟩
      have next (c : Char) := substr_next_iff noNul noNul' begins (c := c)
      rw [next, next]
      refine ⟨begins, ?_⟩
      rcases isSeparator_iff.mp separates with rfl | ⟨windows, rfl⟩
      · exact .inl (.inr ⟨rest, goes⟩)
      · exact .inr ⟨windows, .inr ⟨rest, goes⟩⟩
    · have begins : root <+: path := by
        rw [ends, goes]
        exact ⟨rest, by rw [List.append_assoc, List.singleton_append]⟩
      refine ⟨begins, ?_⟩
      rcases isSeparator_iff.mp separates with rfl | ⟨windows, rfl⟩
      · exact .inl (.inl ⟨dir, ends⟩)
      · exact .inr ⟨windows, .inl ⟨dir, ends⟩⟩

end Texts

abbrev spelled (path : List Char) : List (List Char) := path.splitOn '/'

theorem spelled_slash (path : List Char) : spelled ('/' :: path) = [] :: spelled path :=
  List.splitOn_append_cons_self [] path

theorem spelled_concat (path : List Char) : spelled (path ++ ['/']) = spelled path ++ [[]] :=
  List.splitOn_append_cons_self path []

def directory (root : List Char) : List Char :=
  if root.getLast? = some '/' then root.dropLast else root

theorem root_eq_directory (root : List Char) :
    root = directory root ∨ root = directory root ++ ['/'] := by
  unfold directory
  split
  · rename_i ends
    obtain ⟨dir, rfl⟩ := List.getLast?_eq_some_iff.mp ends
    exact .inr (by rw [List.dropLast_concat])
  · exact .inl rfl

theorem below_iff_spelled {root path : List Char} (posix : root.head? = some '/') :
    Below root path ↔ ∃ more, more ≠ [] ∧ spelled path = spelled (directory root) ++ more := by
  rw [Text.splitOn_append_iff]
  constructor
  · rintro ⟨dir, sep, rest, separates, goes, places⟩
    have slash : sep = '/' :=
      (isSeparator_iff.mp separates).elim id fun windows => absurd posix windows.1
    subst slash
    rcases places with whole | ends
    · subst whole
      rcases root_eq_directory root with same | slashed
      · exact ⟨rest, by rw [← same, goes]⟩
      · refine ⟨'/' :: rest, ?_⟩
        rw [goes]
        nth_rewrite 1 [slashed]
        rw [List.append_assoc, List.singleton_append]
    · refine ⟨rest, ?_⟩
      have last : root.getLast? = some '/' := by rw [ends, List.getLast?_concat]
      rw [goes, directory, if_pos last, ends, List.dropLast_concat]
  · rintro ⟨rest, goes⟩
    exact ⟨directory root, '/', rest, isSeparator_iff.mpr (.inl rfl), goes, root_eq_directory root⟩

end Tomb.Grimoire.ExternalStorage
