import Mathlib.Data.List.Basic
import Mathlib.Logic.Function.Basic

/-! A drive: the entries of its directories, and the files that they lead to. A file stays the same
file when its entry is renamed or removed, which is what an open handle sees. -/
namespace Tomb.Lib

/-- No two entries lead to one file, and the files from `next` on are not made yet. -/
structure Drive (ε β : Type) where
  device : ε → Nat
  dir : ε → Option Nat
  files : Nat → β
  next : Nat
  made : ∀ {entry file}, dir entry = some file → file < next
  single : ∀ {entry other file}, dir entry = some file → dir other = some file → entry = other

namespace Drive

variable {ε β : Type} [DecidableEq ε]

def empty (content : β) : Drive ε β where
  device _ := 0
  dir _ := none
  files _ := content
  next := 0
  made leads := nomatch leads
  single leads := nomatch leads

def handle (drive : Drive ε β) (entry : ε) : Option Nat := drive.dir entry

@[grind =] def read (drive : Drive ε β) (entry : ε) : Option β := (drive.dir entry).map drive.files

def modify (drive : Drive ε β) (file : Nat) (f : β → β) : Drive ε β :=
  { drive with files := Function.update drive.files file (f (drive.files file)) }

def write (drive : Drive ε β) (entry : ε) (content : β) : Drive ε β :=
  match there : drive.dir entry with
  | some file => drive.modify file fun _ => content
  | none => {
      device := drive.device
      dir := Function.update drive.dir entry (some drive.next)
      files := Function.update drive.files drive.next content
      next := drive.next + 1
      made := by
        intro other file leads
        by_cases same : other = entry
        · rw [same, Function.update_self] at leads
          cases leads
          exact Nat.lt_succ_self _
        · rw [Function.update_of_ne same] at leads
          exact Nat.lt_succ_of_lt (drive.made leads)
      single := by
        intro one other file leads leads'
        by_cases same : one = entry
        · by_cases same' : other = entry
          · rw [same, same']
          · rw [same, Function.update_self] at leads
            rw [Function.update_of_ne same'] at leads'
            cases leads
            exact absurd (drive.made leads') (Nat.lt_irrefl _)
        · rw [Function.update_of_ne same] at leads
          by_cases same' : other = entry
          · rw [same', Function.update_self] at leads'
            cases leads'
            exact absurd (drive.made leads) (Nat.lt_irrefl _)
          · rw [Function.update_of_ne same'] at leads'
            exact drive.single leads leads' }

@[grind =] def remove (drive : Drive ε β) (entry : ε) : Drive ε β :=
  { drive with
    dir := Function.update drive.dir entry none
    made := by
      intro other file leads
      by_cases same : other = entry
      · rw [same, Function.update_self] at leads
        cases leads
      · rw [Function.update_of_ne same] at leads
        exact drive.made leads
    single := by
      intro one other file leads leads'
      by_cases same : one = entry
      · rw [same, Function.update_self] at leads
        cases leads
      · by_cases same' : other = entry
        · rw [same', Function.update_self] at leads'
          cases leads'
        · rw [Function.update_of_ne same] at leads
          rw [Function.update_of_ne same'] at leads'
          exact drive.single leads leads' }

@[grind =] def relink (drive : Drive ε β) (entry target : ε) (file : Nat)
    (there : drive.dir entry = some file) : Drive ε β :=
  { drive with
    dir := Function.update (Function.update drive.dir entry none) target (some file)
    made := by
      intro other found leads
      by_cases same : other = target
      · rw [same, Function.update_self] at leads
        cases leads
        exact drive.made there
      · rw [Function.update_of_ne same] at leads
        exact (drive.remove entry).made leads
    single := by
      intro one other found leads leads'
      have moved (third : ε) (leads : Function.update drive.dir entry none third = some file) :
          False := by
        by_cases same : third = entry
        · rw [same, Function.update_self] at leads
          cases leads
        · rw [Function.update_of_ne same] at leads
          exact same (drive.single leads there)
      by_cases same : one = target
      · by_cases same' : other = target
        · rw [same, same']
        · rw [same, Function.update_self] at leads
          rw [Function.update_of_ne same'] at leads'
          cases leads
          exact (moved other leads').elim
      · rw [Function.update_of_ne same] at leads
        by_cases same' : other = target
        · rw [same', Function.update_self] at leads'
          cases leads'
          exact (moved one leads).elim
        · rw [Function.update_of_ne same'] at leads'
          exact (drive.remove entry).single leads leads' }

def rename (drive : Drive ε β) (entry target : ε) : Option (Drive ε β) :=
  if drive.device entry ≠ drive.device target then none
  else
    match there : drive.dir entry with
    | none => none
    | some file => some (drive.relink entry target file there)

def copy (drive : Drive ε β) (entry target : ε) : Option (Drive ε β) :=
  (drive.read entry).map (drive.write target)

omit [DecidableEq ε] in
theorem read_modify (drive : Drive ε β) (file : Nat) (f : β → β) (entry : ε) :
    (drive.modify file f).read entry =
      if drive.dir entry = some file then (drive.read entry).map f else drive.read entry := by
  unfold read modify
  cases leads : drive.dir entry with
  | none => simp
  | some found =>
    by_cases same : found = file
    · simp [same]
    · simp [same]

@[simp] theorem read_write (drive : Drive ε β) (entry : ε) (content : β) (other : ε) :
    (drive.write entry content).read other =
      if other = entry then some content else drive.read other := by
  unfold write
  split
  · rename_i file there
    rw [read_modify]
    by_cases same : other = entry
    · simp [same, there, read]
    · have apart : drive.dir other ≠ some file := fun leads => same (drive.single leads there)
      rw [if_neg apart, if_neg same]
  · rename_i there
    unfold read
    by_cases same : other = entry
    · simp [same]
    · simp only [Function.update_of_ne same, if_neg same]
      refine Option.map_congr fun file leads => ?_
      exact Function.update_of_ne (Nat.ne_of_lt (drive.made leads)) _ _

@[simp] theorem read_remove (drive : Drive ε β) (entry other : ε) :
    (drive.remove entry).read other = if other = entry then none else drive.read other := by
  unfold read remove
  by_cases same : other = entry
  · simp [same]
  · simp [same]

variable {drive moved : Drive ε β} {entry target : ε}

theorem rename_eq_some (done : drive.rename entry target = some moved) :
    drive.device entry = drive.device target ∧
      ∃ file there, moved = drive.relink entry target file there := by
  unfold rename at done
  split at done
  · cases done
  · rename_i near
    split at done
    · cases done
    · rename_i file there
      exact ⟨not_not.mp near, file, there, (Option.some.inj done).symm⟩

theorem read_rename (done : drive.rename entry target = some moved) (other : ε) :
    moved.read other = if other = target then drive.read entry
      else if other = entry then none else drive.read other := by
  obtain ⟨-, file, there, rfl⟩ := rename_eq_some done
  unfold read relink
  by_cases same : other = target
  · simp [same, there]
  · simp only [Function.update_of_ne same, if_neg same]
    by_cases same' : other = entry
    · simp [same']
    · simp [same']

theorem rename_isSome {content : β}
    (near : drive.device entry = drive.device target) (there : drive.read entry = some content) :
    ∃ moved, drive.rename entry target = some moved := by
  obtain ⟨file, leads, -⟩ := Option.map_eq_some_iff.mp there
  unfold rename
  rw [if_neg (not_not.mpr near)]
  split
  · rename_i missing
    rw [leads] at missing
    cases missing
  · exact ⟨_, rfl⟩

structure Owns (drive : Drive ε β) (entry : ε) (file : Nat) : Prop where
  made : file < drive.next
  only : ∀ other, drive.dir other = some file → other = entry

omit [DecidableEq ε] in
theorem owns_of_handle {drive : Drive ε β} {entry : ε} {file : Nat}
    (opened : drive.handle entry = some file) : drive.Owns entry file :=
  ⟨drive.made opened, fun _ leads => drive.single leads opened⟩

omit [DecidableEq ε] in
theorem Owns.modify {drive : Drive ε β} {entry : ε} {file : Nat} (owns : drive.Owns entry file)
    (other : Nat) (f : β → β) : (drive.modify other f).Owns entry file :=
  ⟨owns.made, owns.only⟩

theorem Owns.write {file : Nat} (owns : drive.Owns entry file)
    (other : ε) (content : β) : (drive.write other content).Owns entry file := by
  unfold Drive.write
  split
  · exact owns.modify _ _
  · refine ⟨Nat.lt_succ_of_lt owns.made, fun third leads => ?_⟩
    by_cases same : third = other
    · simp only [same, Function.update_self, Option.some.injEq] at leads
      exact absurd (leads ▸ owns.made) (Nat.lt_irrefl _)
    · simp only [Function.update_of_ne same] at leads
      exact owns.only third leads

theorem Owns.remove {file : Nat} (owns : drive.Owns entry file)
    (other : ε) : (drive.remove other).Owns entry file := by
  refine ⟨owns.made, fun third leads => ?_⟩
  by_cases same : third = other
  · simp only [Drive.remove, same, Function.update_self, reduceCtorEq] at leads
  · simp only [Drive.remove, Function.update_of_ne same] at leads
    exact owns.only third leads

theorem Owns.rename {file : Nat} (owns : drive.Owns entry file) {source : ε}
    (done : drive.rename source target = some moved) (apart : source ≠ entry) :
    moved.Owns entry file := by
  obtain ⟨-, found, there, rfl⟩ := rename_eq_some done
  refine ⟨owns.made, fun third leads => ?_⟩
  by_cases same : third = target
  · simp only [relink, same, Function.update_self, Option.some.injEq] at leads
    exact absurd (owns.only source (leads ▸ there)) apart
  · simp only [relink, Function.update_of_ne same] at leads
    by_cases same' : third = source
    · simp only [same', Function.update_self, reduceCtorEq] at leads
    · simp only [Function.update_of_ne same'] at leads
      exact owns.only third leads

omit [DecidableEq ε] in
theorem Owns.read_modify {drive : Drive ε β} {entry : ε} {file : Nat}
    (owns : drive.Owns entry file) (f : β → β) {other : ε} (apart : other ≠ entry) :
    (drive.modify file f).read other = drive.read other := by
  rw [Drive.read_modify, if_neg fun leads => apart (owns.only other leads)]

theorem handle_write_of_ne (drive : Drive ε β) {other : ε} (content : β)
    (apart : other ≠ entry) : (drive.write entry content).handle other = drive.handle other := by
  unfold handle Drive.write
  split
  · rfl
  · exact Function.update_of_ne apart _ _

theorem handle_remove_of_ne (drive : Drive ε β) {other : ε} (apart : other ≠ entry) :
    (drive.remove entry).handle other = drive.handle other :=
  Function.update_of_ne apart _ _

theorem handle_rename_of_ne {source other : ε}
    (done : drive.rename source target = some moved) (apart : other ≠ source)
    (apart' : other ≠ target) : moved.handle other = drive.handle other := by
  obtain ⟨-, found, there, rfl⟩ := rename_eq_some done
  exact (Function.update_of_ne apart' _ _).trans (Function.update_of_ne apart _ _)

end Drive

end Tomb.Lib
