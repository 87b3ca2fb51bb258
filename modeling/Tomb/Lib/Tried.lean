import Tomb.Lib.Prog

/-! Commands of a store that may be out of order: before each, the run draws whether it fails. A
command that fails does nothing. -/
namespace Tomb.Lib

inductive Tried (Cmd : Type → Type) (γ : Type) : Type where
  | statement (command : Cmd γ)
  | fails (answer : Bool → γ)

/-- A store, and which of the coming commands fail; when the list ends, none do. -/
structure Unreliable (σ : Type) where
  store : σ
  outages : List Bool

variable {Cmd : Type → Type} {σ ε ε' α β : Type}

instance [Machine Cmd σ] : Machine (Tried Cmd) (Unreliable σ) where
  exec
    | .statement command, s =>
      ((Machine.exec command s.store).1, { s with store := (Machine.exec command s.store).2 })
    | .fails answer, s => (answer (s.outages.headD false), { s with outages := s.outages.tail })

namespace Prog

def tried (error : ε) (command : Cmd α) : Prog (Tried Cmd) ε α := do
  if ← issue (.fails id) then .fail error else issue (.statement command)

def triedOr (error : ε) (command : Cmd (Except ε α)) : Prog (Tried Cmd) ε α := do
  if ← issue (.fails id) then .fail error else attempt (.statement command)

def sure (command : Cmd α) : Prog (Tried Cmd) ε α := issue (.statement command)

def reliable : Prog (Tried Cmd) ε α → Prog Cmd ε α
  | .ret value => .ret value
  | .fail error => .fail error
  | .call (.statement command) next => .call command fun answer => (next answer).reliable
  | .call (.fails answer) next => (next (answer false)).reliable

theorem bind_assoc {γ : Type} (p : Prog Cmd ε α) (f : α → Prog Cmd ε β)
    (g : β → Prog Cmd ε γ) : p >>= f >>= g = p >>= fun value => f value >>= g := by
  induction p with
  | ret value => rfl
  | fail error => rfl
  | call command next ih => exact congrArg _ (funext ih)

@[simp] theorem reliable_ret (value : α) :
    (ret value : Prog (Tried Cmd) ε α).reliable = .ret value := rfl

@[simp] theorem reliable_fail (error : ε) :
    (fail error : Prog (Tried Cmd) ε α).reliable = .fail error := rfl

@[simp] theorem reliable_bind (p : Prog (Tried Cmd) ε α) (f : α → Prog (Tried Cmd) ε β) :
    (p >>= f).reliable = p.reliable >>= fun value => (f value).reliable := by
  induction p with
  | ret value => rfl
  | fail error => rfl
  | call command next ih =>
    cases command with
    | statement command => exact congrArg _ (funext ih)
    | fails answer => exact ih _

@[simp] theorem reliable_tried (error : ε) (command : Cmd α) :
    (tried error command).reliable = issue command := rfl

@[simp] theorem reliable_triedOr (error : ε) (command : Cmd (Except ε α)) :
    (triedOr error command).reliable = attempt command := by
  show Prog.call command (fun answer => reliable _) = _
  refine congrArg _ (funext fun answer => ?_)
  cases answer <;> rfl

@[simp] theorem reliable_sure (command : Cmd α) :
    (sure command : Prog (Tried Cmd) ε α).reliable = issue command := rfl

@[simp] theorem reliable_ofOption (error : ε) (value : Option α) :
    (ofOption error value : Prog (Tried Cmd) ε α).reliable = ofOption error value := by
  cases value <;> rfl

@[simp] theorem reliable_ofExcept (value : Except ε α) :
    (ofExcept value : Prog (Tried Cmd) ε α).reliable = ofExcept value := by
  cases value <;> rfl

@[simp] theorem reliable_require (condition : Bool) (error : ε) :
    (require condition error : Prog (Tried Cmd) ε Unit).reliable = require condition error := by
  cases condition <;> rfl

@[simp] theorem reliable_mapError (h : ε → ε') (p : Prog (Tried Cmd) ε α) :
    (p.mapError h).reliable = p.reliable.mapError h := by
  induction p with
  | ret value => rfl
  | fail error => rfl
  | call command next ih =>
    cases command with
    | statement command => exact congrArg _ (funext ih)
    | fails answer => exact ih _

@[simp] theorem reliable_result (p : Prog (Tried Cmd) ε α) :
    (p.result : Prog (Tried Cmd) ε' (Except ε α)).reliable = p.reliable.result := by
  induction p with
  | ret value => rfl
  | fail error => rfl
  | call command next ih =>
    cases command with
    | statement command => exact congrArg _ (funext ih)
    | fails answer => exact ih _

variable [Machine Cmd σ]

theorem run_reliable (p : Prog (Tried Cmd) ε α) (s : σ) :
    p.run ⟨s, []⟩ = ((p.reliable.run s).1, ⟨(p.reliable.run s).2, []⟩) := by
  induction p generalizing s with
  | ret value => rfl
  | fail error => rfl
  | call command next ih =>
    cases command with
    | statement command => exact ih _ _
    | fails answer => exact ih _ _

/-- It is the same when the list of outages only says that none comes. -/
theorem run_steady (p : Prog (Tried Cmd) ε α) {outages : List Bool}
    (steady : ∀ fails ∈ outages, fails = false) (s : σ) :
    (p.run ⟨s, outages⟩).1 = (p.reliable.run s).1 ∧
      (p.run ⟨s, outages⟩).2.store = (p.reliable.run s).2 := by
  induction p generalizing s outages with
  | ret value => exact ⟨rfl, rfl⟩
  | fail error => exact ⟨rfl, rfl⟩
  | call command next ih =>
    cases command with
    | statement command => exact ih _ steady _
    | fails answer =>
      cases outages with
      | nil => exact ih _ steady _
      | cons first rest =>
        have none : first = false := steady first List.mem_cons_self
        subst none
        exact ih _ (fun fails later => steady fails (List.mem_cons_of_mem _ later)) _

/-- Whatever is out of order, the run ends as `post` says. -/
def Leaves (p : Prog (Tried Cmd) ε α) (s : σ) (post : Except ε α → σ → Prop) : Prop :=
  ∀ outages, post (p.run ⟨s, outages⟩).1 (p.run ⟨s, outages⟩).2.store

def Outcome (good : α → σ → Prop) (bad : σ → Prop) : Except ε α → σ → Prop
  | .ok value, s => good value s
  | .error _, s => bad s

theorem Leaves.imp {p : Prog (Tried Cmd) ε α} {s : σ} {post post' : Except ε α → σ → Prop}
    (leaves : p.Leaves s post) (weaker : ∀ result t, post result t → post' result t) :
    p.Leaves s post' :=
  fun outages => weaker _ _ (leaves outages)

theorem Leaves.reliable {p : Prog (Tried Cmd) ε α} {s : σ} {post : Except ε α → σ → Prop}
    (leaves : p.Leaves s post) : post (p.reliable.run s).1 (p.reliable.run s).2 := by
  have ends := leaves []
  rw [run_reliable] at ends
  exact ends

theorem leaves_ret {value : α} {s : σ} {post : Except ε α → σ → Prop} (now : post (.ok value) s) :
    (ret value : Prog (Tried Cmd) ε α).Leaves s post :=
  fun _ => now

theorem leaves_fail {error : ε} {s : σ} {post : Except ε α → σ → Prop}
    (now : post (.error error) s) : (fail error : Prog (Tried Cmd) ε α).Leaves s post :=
  fun _ => now

theorem leaves_bind {p : Prog (Tried Cmd) ε α} {f : α → Prog (Tried Cmd) ε β} {s : σ}
    {post : Except ε β → σ → Prop} (leaves : p.Leaves s fun result t => match result with
      | .ok value => (f value).Leaves t post
      | .error error => post (.error error) t) : (p >>= f).Leaves s post := by
  intro outages
  have first := leaves outages
  rw [run_bind]
  cases ran : p.run ⟨s, outages⟩ with
  | mk result t =>
    rw [ran] at first
    cases result with
    | ok value => exact first t.outages
    | error error => exact first

theorem leaves_tried {error : ε} {command : Cmd α} {s : σ} {post : Except ε α → σ → Prop}
    (out : post (.error error) s)
    (works : post (.ok (Machine.exec command s).1) (Machine.exec command s).2) :
    (tried error command).Leaves s post := by
  intro outages
  cases outages with
  | nil => exact works
  | cons fails rest =>
    cases fails with
    | true => exact out
    | false => exact works

theorem run_triedOr (error : ε) (command : Cmd (Except ε α)) (s : σ) (outages : List Bool) :
    (triedOr error command).run ⟨s, outages⟩ =
      if outages.headD false then (.error error, ⟨s, outages.tail⟩)
      else ((Machine.exec command s).1, ⟨(Machine.exec command s).2, outages.tail⟩) := by
  unfold triedOr
  rw [run_bind, run_issue]
  cases drawn : outages.headD false with
  | true =>
    simp only [Machine.exec, drawn]
    rfl
  | false =>
    simp only [Machine.exec, drawn]
    exact run_attempt ..

theorem leaves_triedOr {error : ε} {command : Cmd (Except ε α)} {s : σ}
    {post : Except ε α → σ → Prop} (out : post (.error error) s)
    (works : post (Machine.exec command s).1 (Machine.exec command s).2) :
    (triedOr error command).Leaves s post := by
  intro outages
  rw [run_triedOr]
  split
  · exact out
  · exact works

theorem leaves_sure {command : Cmd α} {s : σ} {post : Except ε α → σ → Prop}
    (works : post (.ok (Machine.exec command s).1) (Machine.exec command s).2) :
    (sure command : Prog (Tried Cmd) ε α).Leaves s post :=
  fun _ => works

theorem leaves_ofOption {error : ε} {value : Option α} {s : σ} {post : Except ε α → σ → Prop}
    (found : ∀ there, value = some there → post (.ok there) s)
    (absent : value = none → post (.error error) s) :
    (ofOption error value : Prog (Tried Cmd) ε α).Leaves s post := by
  cases value with
  | none => exact leaves_fail (absent rfl)
  | some there => exact leaves_ret (found there rfl)

theorem leaves_require {condition : Bool} {error : ε} {s : σ} {post : Except ε Unit → σ → Prop}
    (holds : condition = true → post (.ok ()) s)
    (fails : condition = false → post (.error error) s) :
    (require condition error : Prog (Tried Cmd) ε Unit).Leaves s post := by
  cases condition with
  | true => exact leaves_ret (holds rfl)
  | false => exact leaves_fail (fails rfl)

theorem leaves_mapError {h : ε → ε'} {p : Prog (Tried Cmd) ε α} {s : σ}
    {post : Except ε' α → σ → Prop}
    (leaves : p.Leaves s fun result t => post (result.mapError h) t) :
    (p.mapError h).Leaves s post := by
  intro outages
  rw [run_mapError]
  exact leaves outages

theorem leaves_result {p : Prog (Tried Cmd) ε α} {s : σ} {post : Except ε' (Except ε α) → σ → Prop}
    (leaves : p.Leaves s fun result t => post (.ok result) t) :
    (p.result : Prog (Tried Cmd) ε' (Except ε α)).Leaves s post := by
  intro outages
  rw [run_result]
  exact leaves outages

end Prog

end Tomb.Lib
