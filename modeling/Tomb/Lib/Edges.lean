import Mathlib.Data.List.Induction

/-! A list is read from its front, and at each entry it is noted whether a property holds and
whether an action is taken. An action that is taken exactly where the property begins to hold is
taken once in each longest run of entries that have the property. -/
namespace Tomb.Lib

variable {α : Type} (p q : α → Bool)

/-- `q` holds where `p` begins to hold, and nowhere else. -/
def OnEdges : Bool → List α → Prop
  | _, [] => True
  | was, a :: rest => q a = (p a && !was) ∧ OnEdges (p a) rest

def latest : Bool → List α → Bool
  | was, [] => was
  | _, a :: rest => latest (p a) rest

/-- In each longest run of entries with `p`, `q` holds of one. -/
def OncePerRun (entries : List α) : Prop :=
  ∀ before run after, entries = before ++ run ++ after → run ≠ [] → (∀ a ∈ run, p a = true) →
    (∀ a ∈ before.getLast?, p a = false) → (∀ a ∈ after.head?, p a = false) → run.countP q = 1

variable {p q} {was : Bool} {entries more : List α} {a : α}

theorem latest_append : latest p was (entries ++ more) = latest p (latest p was entries) more := by
  induction entries generalizing was with
  | nil => rfl
  | cons a rest ih => exact ih

theorem onEdges_append :
    OnEdges p q was (entries ++ more) ↔
      OnEdges p q was entries ∧ OnEdges p q (latest p was entries) more := by
  induction entries generalizing was with
  | nil => exact (and_iff_right trivial).symm
  | cons a rest ih => exact (and_congr_right fun _ => ih).trans and_assoc.symm

theorem onEdges_concat :
    OnEdges p q was (entries ++ [a]) ↔
      OnEdges p q was entries ∧ q a = (p a && !latest p was entries) := by
  rw [onEdges_append]
  exact and_congr_right fun _ => and_iff_left trivial

theorem latest_concat : latest p was (entries ++ [a]) = p a := latest_append

theorem latest_eq_false (last : ∀ a ∈ entries.getLast?, p a = false) :
    latest p false entries = false := by
  rcases List.eq_nil_or_concat entries with rfl | ⟨front, a, rfl⟩
  · rfl
  · rw [List.concat_eq_append] at last ⊢
    rw [latest_concat]
    exact last a (by rw [List.getLast?_concat]; rfl)

theorem OnEdges.countP_eq_zero (edges : OnEdges p q true entries)
    (all : ∀ a ∈ entries, p a = true) : entries.countP q = 0 := by
  induction entries with
  | nil => rfl
  | cons a rest ih =>
    obtain ⟨here, later⟩ := edges
    obtain ⟨first, others⟩ := List.forall_mem_cons.mp all
    rw [first] at here later
    rw [List.countP_cons_of_neg (by rw [here]; decide)]
    exact ih later others

theorem OnEdges.oncePerRun (edges : OnEdges p q false entries) : OncePerRun p q entries := by
  rintro before run after rfl nonempty all front -
  have own := (onEdges_append.mp (onEdges_append.mp edges).1).2
  rw [latest_eq_false front] at own
  cases run with
  | nil => exact absurd rfl nonempty
  | cons a rest =>
    obtain ⟨here, later⟩ := own
    obtain ⟨first, others⟩ := List.forall_mem_cons.mp all
    rw [first] at here later
    rw [List.countP_cons_of_pos here, later.countP_eq_zero others]

theorem exists_final_run (p : α → Bool) (entries : List α) :
    ∃ before run, entries = before ++ run ∧ (∀ a ∈ run, p a = true) ∧
      ∀ a ∈ before.getLast?, p a = false := by
  induction entries using List.reverseRecOn with
  | nil => exact ⟨[], [], rfl, nofun, nofun⟩
  | append_singleton front a ih =>
    cases holds : p a with
    | false =>
      refine ⟨front ++ [a], [], (List.append_nil _).symm, nofun, fun b last => ?_⟩
      rw [List.getLast?_concat] at last
      exact Option.mem_some.mp last ▸ holds
    | true =>
      obtain ⟨before, run, rfl, all, last⟩ := ih
      refine ⟨before, run ++ [a], List.append_assoc .., fun b member => ?_, last⟩
      rcases List.mem_append.mp member with member | member
      · exact all b member
      · exact List.mem_singleton.mp member ▸ holds

theorem OnEdges.not_oncePerRun (edges : OnEdges p q false entries)
    (holding : latest p false entries = true) (holds : p a = true) (acts : q a = true) :
    ¬OncePerRun p q (entries ++ [a]) := by
  intro once
  obtain ⟨before, run, rfl, all, last⟩ := exists_final_run p entries
  have nonempty : run ≠ [] := by
    rintro rfl
    rw [List.append_nil, latest_eq_false last] at holding
    exact Bool.false_ne_true holding
  have every : ∀ b ∈ run ++ [a], p b = true := by
    intro b member
    rcases List.mem_append.mp member with member | member
    · exact all b member
    · exact List.mem_singleton.mp member ▸ holds
  have first := edges.oncePerRun before run [] (List.append_nil _).symm nonempty all last nofun
  have second := once before (run ++ [a]) [] (by simp) (by simp) every last nofun
  rw [List.countP_append, first, List.countP_singleton, if_pos acts] at second
  exact absurd second (by decide)

end Tomb.Lib
