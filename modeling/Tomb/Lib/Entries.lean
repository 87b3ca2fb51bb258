import Mathlib.Algebra.Ring.Nat
import Mathlib.Data.List.Basic

/-! Lists in which the entry at one place changes, as a table of tasks does when a task goes on. -/
namespace Tomb.Lib

variable {α : Type} {entries : List α} {place : Nat} {entry : α} {f : α → α}

theorem mem_modify (there : entries[place]? = some entry) {other : α}
    (member : other ∈ entries.modify place f) : other ∈ entries ∨ other = f entry := by
  obtain ⟨index, found⟩ := List.mem_iff_getElem?.mp member
  rw [List.getElem?_modify] at found
  obtain ⟨old, known, rfl⟩ := Option.map_eq_some_iff.mp found
  split
  · rename_i same
    subst same
    rw [Option.some.inj (known.symm.trans there)]
    exact .inr rfl
  · exact .inl (List.mem_of_getElem? known)

theorem mem_modify_self (there : entries[place]? = some entry) :
    f entry ∈ entries.modify place f := by
  refine List.mem_iff_getElem?.mpr ⟨place, ?_⟩
  rw [List.getElem?_modify, there]
  exact congrArg some (if_pos rfl)

theorem exists_modify (there : entries[place]? = some entry) {p : α → Prop}
    (keeps : p entry → p (f entry)) (before : ∃ other ∈ entries, p other) :
    ∃ other ∈ entries.modify place f, p other := by
  obtain ⟨other, member, holds⟩ := before
  obtain ⟨index, found⟩ := List.mem_iff_getElem?.mp member
  by_cases same : place = index
  · subst same
    have equal : other = entry := Option.some.inj (found.symm.trans there)
    rw [equal] at holds
    exact ⟨f entry, mem_modify_self there, keeps holds⟩
  · refine ⟨other, List.mem_iff_getElem?.mpr ⟨index, ?_⟩, holds⟩
    rw [List.getElem?_modify, found]
    exact congrArg some (if_neg same)

theorem sum_map_set (f : α → Nat) {i : Nat} {old : α} (new : α)
    (there : entries[i]? = some old) :
    ((entries.set i new).map f).sum + f old = (entries.map f).sum + f new := by
  induction entries generalizing i with
  | nil => cases there
  | cons first rest ih =>
    cases i with
    | zero =>
      cases there
      simp only [List.set_cons_zero, List.map_cons, List.sum_cons]
      omega
    | succ i =>
      have tail := ih there
      simp only [List.set_cons_succ, List.map_cons, List.sum_cons]
      omega

theorem sum_map_modify (g : α → Nat) (there : entries[place]? = some entry) :
    ((entries.modify place f).map g).sum + g entry = (entries.map g).sum + g (f entry) := by
  rw [← sum_map_set g (f entry) there]
  congr 3
  apply List.ext_getElem?
  intro i
  rw [List.getElem?_modify, List.getElem?_set]
  split
  · rename_i same
    rw [← same, there]
    obtain ⟨inside, -⟩ := List.getElem?_eq_some_iff.mp there
    rw [if_pos inside]
    rfl
  · exact Option.map_id'

end Tomb.Lib

/-! Histories: lists of entries, the latest one last, each of which may tell something. -/
namespace Tomb.Lib

variable {α β : Type}

def lastTold (tells : α → Option β) (entries : List α) : Option β :=
  (entries.filterMap tells).getLast?

theorem lastTold_append (tells : α → Option β) (entries later : List α) :
    lastTold tells (entries ++ later) = (lastTold tells later).or (lastTold tells entries) := by
  unfold lastTold
  rw [List.filterMap_append, List.getLast?_append]

theorem lastTold_concat (tells : α → Option β) (entries : List α) (entry : α) :
    lastTold tells (entries ++ [entry]) = (tells entry).or (lastTold tells entries) := by
  have alone : lastTold tells [entry] = tells entry := by
    unfold lastTold
    cases told : tells entry with
    | none => simp only [List.filterMap_cons, told, List.filterMap_nil, List.getLast?_nil]
    | some value => simp only [List.filterMap_cons, told, List.filterMap_nil,
        List.getLast?_singleton]
  rw [lastTold_append, alone]

theorem lastTold_cons {tells : α → Option β} {entry : α} (told : tells entry ≠ none)
    (later : List α) :
    ∃ last ∈ entry :: later, ∃ value, tells last = some value ∧
      lastTold tells (entry :: later) = some value := by
  obtain ⟨value, told⟩ := Option.ne_none_iff_exists'.mp told
  cases final : (List.filterMap tells (entry :: later)).getLast? with
  | none =>
    rw [List.getLast?_eq_none_iff, List.filterMap_cons, told] at final
    exact absurd final (List.cons_ne_nil _ _)
  | some last =>
    obtain ⟨source, there, told⟩ := List.mem_filterMap.mp (List.mem_of_getLast? final)
    exact ⟨source, there, last, told, final⟩

theorem told_again {tells : α → Option Bool} {older between : List α} {entry : α}
    (denied : tells entry = some false)
    (again : lastTold tells (older ++ entry :: between) ≠ some false) :
    ∃ later ∈ between, tells later = some true := by
  obtain ⟨last, there, value, said, final⟩ :=
    lastTold_cons (denied ▸ Option.some_ne_none false) between
  rw [lastTold_append, final, Option.some_or] at again
  cases value with
  | false => exact absurd rfl again
  | true =>
    rcases List.mem_cons.mp there with rfl | later
    · rw [denied] at said
      cases said
    · exact ⟨last, later, said⟩

def EachRight (right : List α → α → Prop) (entries : List α) : Prop :=
  ∀ before entry rest, entries = before ++ entry :: rest → right before entry

theorem eachRight_nil (right : List α → α → Prop) : EachRight right [] := by
  intro before entry rest split
  cases before <;> cases split

theorem EachRight.concat {right : List α → α → Prop} {entries : List α} {entry : α}
    (each : EachRight right entries) (last : right entries entry) :
    EachRight right (entries ++ [entry]) := by
  intro before middle rest split
  rcases List.eq_nil_or_concat rest with rfl | ⟨rest, final, rfl⟩
  · obtain ⟨rfl, same⟩ := List.append_inj' split rfl
    injection same with same
    exact same ▸ last
  · rw [List.concat_eq_append, ← List.cons_append, ← List.append_assoc] at split
    exact each before middle rest (List.append_inj' split rfl).1

end Tomb.Lib
