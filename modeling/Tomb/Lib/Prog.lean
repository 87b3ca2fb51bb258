import Mathlib.Logic.Basic
import Mathlib.Tactic.SplitIfs

/-! Programs over a store: a program issues commands one at a time, each command runs atomically
and answers, and the program ends with a value or with an error. `Cmd β` are the commands that
answer with a `β`. -/
namespace Tomb.Lib

inductive Prog (Cmd : Type → Type) (ε α : Type) : Type 1 where
  | ret (value : α)
  | fail (error : ε)
  | call {β : Type} (command : Cmd β) (next : β → Prog Cmd ε α)

/-- The meaning of the commands on states `σ`. -/
class Machine (Cmd : Type → Type) (σ : outParam Type) where
  exec : {β : Type} → Cmd β → σ → β × σ

namespace Prog

variable {Cmd Cmd' : Type → Type} {σ ε ε' α β : Type}

def bind (p : Prog Cmd ε α) (f : α → Prog Cmd ε β) : Prog Cmd ε β :=
  match p with
  | .ret value => f value
  | .fail error => .fail error
  | .call command next => .call command fun answer => (next answer).bind f

instance : Monad (Prog Cmd ε) where
  pure := .ret
  bind := bind

def issue (command : Cmd α) : Prog Cmd ε α := .call command .ret

def attempt (command : Cmd (Except ε α)) : Prog Cmd ε α :=
  .call command fun
    | .ok value => .ret value
    | .error error => .fail error

def ofOption (error : ε) : Option α → Prog Cmd ε α
  | some value => .ret value
  | none => .fail error

def ofExcept : Except ε α → Prog Cmd ε α
  | .ok value => .ret value
  | .error error => .fail error

def require (condition : Bool) (error : ε) : Prog Cmd ε Unit :=
  if condition then .ret () else .fail error

def mapError (h : ε → ε') : Prog Cmd ε α → Prog Cmd ε' α
  | .ret value => .ret value
  | .fail error => .fail (h error)
  | .call command next => .call command fun answer => (next answer).mapError h

def result : Prog Cmd ε α → Prog Cmd ε' (Except ε α)
  | .ret value => .ret (.ok value)
  | .fail error => .ret (.error error)
  | .call command next => .call command fun answer => (next answer).result

def quiet : Prog Cmd ε α → Prog Cmd ε' Unit
  | .ret _ => .ret ()
  | .fail _ => .ret ()
  | .call command next => .call command fun answer => (next answer).quiet

@[grind =] def embed (h : {β : Type} → Cmd β → Cmd' β) : Prog Cmd ε α → Prog Cmd' ε α
  | .ret value => .ret value
  | .fail error => .fail error
  | .call command next => .call (h command) fun answer => (next answer).embed h

@[simp] theorem pure_def (value : α) : (pure value : Prog Cmd ε α) = .ret value := rfl

@[simp] theorem ret_bind (value : α) (f : α → Prog Cmd ε β) :
    ((.ret value : Prog Cmd ε α) >>= f) = f value := rfl

@[simp] theorem fail_bind (error : ε) (f : α → Prog Cmd ε β) :
    ((.fail error : Prog Cmd ε α) >>= f) = .fail error := rfl

@[simp] theorem call_bind {γ : Type} (command : Cmd γ) (next : γ → Prog Cmd ε α)
    (f : α → Prog Cmd ε β) :
    ((.call command next : Prog Cmd ε α) >>= f) = .call command fun answer => next answer >>= f :=
  rfl

section Run

variable [Machine Cmd σ]

def run : Prog Cmd ε α → σ → Except ε α × σ
  | .ret value, s => (.ok value, s)
  | .fail error, s => (.error error, s)
  | .call command next, s => run (next (Machine.exec command s).1) (Machine.exec command s).2

@[simp] theorem run_ret (value : α) (s : σ) : (ret value : Prog Cmd ε α).run s = (.ok value, s) :=
  rfl

@[simp] theorem run_fail (error : ε) (s : σ) :
    (fail error : Prog Cmd ε α).run s = (.error error, s) := rfl

@[simp] theorem run_call {γ : Type} (command : Cmd γ) (next : γ → Prog Cmd ε α) (s : σ) :
    (call command next).run s =
      (next (Machine.exec command s).1).run (Machine.exec command s).2 := rfl

@[simp] theorem run_issue (command : Cmd α) (s : σ) :
    (issue command : Prog Cmd ε α).run s =
      (.ok (Machine.exec command s).1, (Machine.exec command s).2) := rfl

@[simp] theorem run_attempt (command : Cmd (Except ε α)) (s : σ) :
    (attempt command).run s = Machine.exec command s := by
  unfold attempt
  rw [run_call]
  cases h : (Machine.exec command s).1 <;> simp [← h]

@[simp] theorem run_ofOption (error : ε) (value : Option α) (s : σ) :
    (ofOption error value : Prog Cmd ε α).run s = (value.elim (.error error) .ok, s) := by
  cases value <;> rfl

@[simp] theorem run_require (condition : Bool) (error : ε) (s : σ) :
    (require condition error : Prog Cmd ε Unit).run s =
      (if condition then .ok () else .error error, s) := by
  cases condition <;> rfl

@[simp] theorem run_bind (p : Prog Cmd ε α) (f : α → Prog Cmd ε β) (s : σ) :
    (p >>= f).run s = match p.run s with
      | (.ok value, t) => (f value).run t
      | (.error error, t) => (.error error, t) := by
  induction p generalizing s with
  | ret value => rfl
  | fail error => rfl
  | call command next ih => exact ih _ _

theorem run_bind_ok {p : Prog Cmd ε α} {f : α → Prog Cmd ε β} {s : σ} {value : β}
    (ran : ((p >>= f).run s).1 = .ok value) : ∃ middle t, p.run s = (.ok middle, t) ∧
      (p >>= f).run s = (f middle).run t := by
  rw [run_bind] at ran ⊢
  rcases ended : p.run s with ⟨error | middle, t⟩
  · rw [ended] at ran
    cases ran
  · exact ⟨middle, t, rfl, rfl⟩

/-- What a program does to the store does not depend on what is made of its value. -/
theorem run_bind_ret (p : Prog Cmd ε α) (f : α → β) (s : σ) :
    (p >>= fun value => ret (f value)).run s = ((p.run s).1.map f, (p.run s).2) := by
  rw [run_bind]
  rcases p.run s with ⟨answer, t⟩
  cases answer <;> rfl

@[simp] theorem run_mapError (h : ε → ε') (p : Prog Cmd ε α) (s : σ) :
    (p.mapError h).run s = ((p.run s).1.mapError h, (p.run s).2) := by
  induction p generalizing s with
  | ret value => rfl
  | fail error => rfl
  | call command next ih => exact ih _ _

@[simp] theorem run_result (p : Prog Cmd ε α) (s : σ) :
    (p.result : Prog Cmd ε' (Except ε α)).run s = (.ok (p.run s).1, (p.run s).2) := by
  induction p generalizing s with
  | ret value => rfl
  | fail error => rfl
  | call command next ih => exact ih _ _

@[simp] theorem run_quiet (p : Prog Cmd ε α) (s : σ) :
    (p.quiet : Prog Cmd ε' Unit).run s = (.ok (), (p.run s).2) := by
  induction p generalizing s with
  | ret value => rfl
  | fail error => rfl
  | call command next ih => exact ih _ _

end Run

/-- The program ends with the value for some answers to its commands. -/
def Yields : Prog Cmd ε α → α → Prop
  | .ret value, result => value = result
  | .fail _, _ => False
  | .call _ next, result => ∃ answer, (next answer).Yields result

section Yields

@[simp] theorem yields_ret (value result : α) :
    (ret value : Prog Cmd ε α).Yields result ↔ value = result := Iff.rfl

@[simp] theorem yields_fail (error : ε) (result : α) :
    (fail error : Prog Cmd ε α).Yields result ↔ False := Iff.rfl

@[simp] theorem yields_issue (command : Cmd α) (result : α) :
    (issue command : Prog Cmd ε α).Yields result := ⟨result, rfl⟩

@[simp] theorem yields_attempt (command : Cmd (Except ε α)) (result : α) :
    (attempt command).Yields result := ⟨.ok result, rfl⟩

@[simp] theorem yields_ofOption (error : ε) (value : Option α) (result : α) :
    (ofOption error value : Prog Cmd ε α).Yields result ↔ value = some result := by
  cases value <;> simp [ofOption]

@[simp] theorem yields_ofExcept (value : Except ε α) (result : α) :
    (ofExcept value : Prog Cmd ε α).Yields result ↔ value = .ok result := by
  cases value <;> simp [ofExcept]

@[simp] theorem yields_require (condition : Bool) (error : ε) (result : Unit) :
    (require condition error : Prog Cmd ε Unit).Yields result ↔ condition = true := by
  cases condition <;> simp [require]

@[simp] theorem yields_bind (p : Prog Cmd ε α) (f : α → Prog Cmd ε β) (result : β) :
    (p >>= f).Yields result ↔ ∃ value, p.Yields value ∧ (f value).Yields result := by
  induction p with
  | ret value => simp
  | fail error => simp
  | call command next ih =>
    simp only [call_bind, Yields, ih]
    exact exists_comm.trans (exists_congr fun value => exists_and_right)

@[simp] theorem yields_mapError (h : ε → ε') (p : Prog Cmd ε α) (result : α) :
    (p.mapError h).Yields result ↔ p.Yields result := by
  induction p with
  | ret value => rfl
  | fail error => rfl
  | call command next ih => exact exists_congr ih

end Yields

/-- Every command that the program can issue is allowed. -/
def Within (allowed : {β : Type} → Cmd β → Prop) : Prog Cmd ε α → Prop
  | .ret _ => True
  | .fail _ => True
  | .call command next => allowed command ∧ ∀ answer, (next answer).Within allowed

section Within

variable {allowed : {β : Type} → Cmd β → Prop}

@[simp] theorem within_ret (value : α) : (ret value : Prog Cmd ε α).Within allowed := trivial

@[simp] theorem within_fail (error : ε) : (fail error : Prog Cmd ε α).Within allowed := trivial

@[simp] theorem within_issue (command : Cmd α) :
    (issue command : Prog Cmd ε α).Within allowed ↔ allowed command :=
  and_iff_left fun _ => trivial

@[simp] theorem within_attempt (command : Cmd (Except ε α)) :
    (attempt command).Within allowed ↔ allowed command :=
  and_iff_left fun answer => by cases answer <;> trivial

@[simp] theorem within_ofOption (error : ε) (value : Option α) :
    (ofOption error value : Prog Cmd ε α).Within allowed := by
  cases value <;> trivial

@[simp] theorem within_ofExcept (value : Except ε α) :
    (ofExcept value : Prog Cmd ε α).Within allowed := by
  cases value <;> trivial

@[simp] theorem within_require (condition : Bool) (error : ε) :
    (require condition error : Prog Cmd ε Unit).Within allowed := by
  cases condition <;> trivial

@[simp] theorem within_ite (c : Prop) [Decidable c] (p q : Prog Cmd ε α) :
    (if c then p else q).Within allowed ↔ (c → p.Within allowed) ∧ (¬c → q.Within allowed) := by
  split <;> simp [*]

@[simp] theorem within_bind (p : Prog Cmd ε α) (f : α → Prog Cmd ε β) :
    (p >>= f).Within allowed ↔
      p.Within allowed ∧ ∀ value, p.Yields value → (f value).Within allowed := by
  induction p with
  | ret value => simp
  | fail error => simp
  | call command next ih =>
    simp only [call_bind, Within, ih, Yields, forall_and, and_assoc, forall_exists_index]
    exact and_congr_right fun _ => and_congr_right fun _ => forall_comm

@[simp] theorem within_mapError (h : ε → ε') (p : Prog Cmd ε α) :
    (p.mapError h).Within allowed ↔ p.Within allowed := by
  induction p with
  | ret value => rfl
  | fail error => rfl
  | call command next ih => exact and_congr_right fun _ => forall_congr' ih

@[simp] theorem within_result (p : Prog Cmd ε α) :
    (p.result : Prog Cmd ε' (Except ε α)).Within allowed ↔ p.Within allowed := by
  induction p with
  | ret value => rfl
  | fail error => rfl
  | call command next ih => exact and_congr_right fun _ => forall_congr' ih

@[simp] theorem within_quiet (p : Prog Cmd ε α) :
    (p.quiet : Prog Cmd ε' Unit).Within allowed ↔ p.Within allowed := by
  induction p with
  | ret value => rfl
  | fail error => rfl
  | call command next ih => exact and_congr_right fun _ => forall_congr' ih

theorem within_embed {allowed : {β : Type} → Cmd' β → Prop} {h : {β : Type} → Cmd β → Cmd' β}
    {p : Prog Cmd ε α} (inner : p.Within fun command => allowed (h command)) :
    (p.embed h).Within allowed := by
  induction p with
  | ret value => trivial
  | fail error => trivial
  | call command next ih => exact ⟨inner.1, fun answer => ih answer (inner.2 answer)⟩

theorem within_of_forall {allowed : {β : Type} → Cmd β → Prop} (p : Prog Cmd ε α)
    (all : ∀ {β : Type} (command : Cmd β), allowed command) : p.Within allowed := by
  induction p with
  | ret value => trivial
  | fail error => trivial
  | call command next ih => exact ⟨all command, ih⟩

theorem Within.imp {allowed allowed' : {β : Type} → Cmd β → Prop} {p : Prog Cmd ε α}
    (inner : p.Within allowed) (weaker : ∀ {β : Type} (command : Cmd β), allowed command →
      allowed' command) : p.Within allowed' := by
  induction p with
  | ret value => trivial
  | fail error => trivial
  | call command next ih => exact ⟨weaker _ inner.1, fun answer => ih answer (inner.2 answer)⟩

theorem Within.run_keeps [Machine Cmd σ] {p : Prog Cmd ε α} (inner : p.Within allowed)
    {invariant : σ → Prop}
    (keeps : ∀ {β : Type} (command : Cmd β) (s : σ), allowed command → invariant s →
      invariant (Machine.exec command s).2) {s : σ} (start : invariant s) :
    invariant (p.run s).2 := by
  induction p generalizing s with
  | ret value => exact start
  | fail error => exact start
  | call command next ih => exact ih _ (inner.2 _) (keeps command s inner.1 start)

end Within

section Embed

variable {h : {β : Type} → Cmd β → Cmd' β}

@[simp] theorem embed_ret (value : α) :
    (ret value : Prog Cmd ε α).embed @h = .ret value := rfl

@[simp] theorem embed_fail (error : ε) :
    (fail error : Prog Cmd ε α).embed @h = .fail error := rfl

@[simp] theorem embed_issue (command : Cmd α) :
    (issue command : Prog Cmd ε α).embed @h = issue (h command) := rfl

@[simp] theorem embed_attempt (command : Cmd (Except ε α)) :
    (attempt command).embed @h = attempt (h command) := by
  unfold attempt
  simp only [embed]
  congr 1
  funext answer
  cases answer <;> rfl

@[simp] theorem embed_ofOption (error : ε) (value : Option α) :
    (ofOption error value : Prog Cmd ε α).embed @h = ofOption error value := by
  cases value <;> rfl

@[simp] theorem embed_bind (p : Prog Cmd ε α) (f : α → Prog Cmd ε β) :
    (p >>= f).embed @h = p.embed h >>= fun value => (f value).embed h := by
  induction p with
  | ret value => rfl
  | fail error => rfl
  | call command next ih => exact congrArg _ (funext ih)

theorem run_embed {σ' : Type} [Machine Cmd σ] [Machine Cmd' σ'] (part : σ' → σ)
    (same : ∀ {β : Type} (command : Cmd β) (s : σ'),
      (Machine.exec (h command) s).1 = (Machine.exec command (part s)).1 ∧
        part (Machine.exec (h command) s).2 = (Machine.exec command (part s)).2)
    (p : Prog Cmd ε α) (s : σ') : ((p.embed @h).run s).1 = (p.run (part s)).1 ∧
      part ((p.embed @h).run s).2 = (p.run (part s)).2 := by
  induction p generalizing s with
  | ret value => exact ⟨rfl, rfl⟩
  | fail error => exact ⟨rfl, rfl⟩
  | call command next ih =>
    have answered := same command s
    have rest := ih (Machine.exec command (part s)).1 (Machine.exec (h command) s).2
    simp only [embed, run_call]
    rw [answered.1, ← answered.2]
    exact rest

end Embed

/-! Runs alone. `Ends fits p s post`: when every command of the run of `p` from `s` fits the state
that it meets, the run ends as `post` says. -/

section Ends

variable [Machine Cmd σ] {fits : {β : Type} → Cmd β → σ → Prop}

def Ends (fits : {β : Type} → Cmd β → σ → Prop) :
    Prog Cmd ε α → σ → (Except ε α → σ → Prop) → Prop
  | .ret value, s, post => post (.ok value) s
  | .fail error, s, post => post (.error error) s
  | .call command next, s, post =>
    fits command s → Ends fits (next (Machine.exec command s).1) (Machine.exec command s).2 post

@[grind =] def Fits (fits : {β : Type} → Cmd β → σ → Prop) : Prog Cmd ε α → σ → Prop
  | .ret _, _ => True
  | .fail _, _ => True
  | .call command next, s =>
    fits command s ∧ Fits fits (next (Machine.exec command s).1) (Machine.exec command s).2

instance decidableFits [decide : ∀ (β : Type) (command : Cmd β) (s : σ),
    Decidable (fits command s)] : (p : Prog Cmd ε α) → (s : σ) → Decidable (p.Fits fits s)
  | .ret _, _ => .isTrue trivial
  | .fail _, _ => .isTrue trivial
  | .call command next, s =>
    have := decidableFits (next (Machine.exec command s).1) (Machine.exec command s).2
    inferInstanceAs (Decidable (fits command s ∧ _))

theorem ends_true {p : Prog Cmd ε α} {s : σ} {post : Except ε α → σ → Prop} :
    p.Ends (fun _ _ => True) s post ↔ post (p.run s).1 (p.run s).2 := by
  induction p generalizing s with
  | ret value => rfl
  | fail error => rfl
  | call command next ih => exact (forall_prop_of_true trivial).trans (ih _)

theorem Ends.imp {p : Prog Cmd ε α} {s : σ} {post post' : Except ε α → σ → Prop}
    (ends : p.Ends fits s post) (weaker : ∀ result t, post result t → post' result t) :
    p.Ends fits s post' := by
  induction p generalizing s with
  | ret value => exact weaker _ _ ends
  | fail error => exact weaker _ _ ends
  | call command next ih => exact fun fit => ih _ (ends fit)

theorem Within.ends {allowed : {β : Type} → Cmd β → Prop} {p : Prog Cmd ε α}
    (inner : p.Within allowed) {invariant : σ → Prop}
    (keeps : ∀ {β : Type} (command : Cmd β) (s : σ), allowed command → fits command s →
      invariant s → invariant (Machine.exec command s).2) {s : σ} (start : invariant s) :
    p.Ends fits s fun _ t => invariant t := by
  induction p generalizing s with
  | ret value => exact start
  | fail error => exact start
  | call command next ih => exact fun fit => ih _ (inner.2 _) (keeps command s inner.1 fit start)

@[simp] theorem ends_ret (value : α) (s : σ) (post : Except ε α → σ → Prop) :
    (ret value : Prog Cmd ε α).Ends fits s post ↔ post (.ok value) s := Iff.rfl

@[simp] theorem ends_fail (error : ε) (s : σ) (post : Except ε α → σ → Prop) :
    (fail error : Prog Cmd ε α).Ends fits s post ↔ post (.error error) s := Iff.rfl

@[simp] theorem ends_issue (command : Cmd α) (s : σ) (post : Except ε α → σ → Prop) :
    (issue command : Prog Cmd ε α).Ends fits s post ↔
      (fits command s → post (.ok (Machine.exec command s).1) (Machine.exec command s).2) :=
  Iff.rfl

@[simp] theorem ends_attempt (command : Cmd (Except ε α)) (s : σ)
    (post : Except ε α → σ → Prop) :
    (attempt command).Ends fits s post ↔
      (fits command s → post (Machine.exec command s).1 (Machine.exec command s).2) := by
  refine forall_congr' fun _ => ?_
  cases h : (Machine.exec command s).1 <;> simp

@[simp] theorem ends_ofOption (error : ε) (value : Option α) (s : σ)
    (post : Except ε α → σ → Prop) :
    (ofOption error value : Prog Cmd ε α).Ends fits s post ↔
      (∀ found, value = some found → post (.ok found) s) ∧
        (value = none → post (.error error) s) := by
  cases value <;> simp [ofOption]

@[simp] theorem ends_ofExcept (value : Except ε α) (s : σ) (post : Except ε α → σ → Prop) :
    (ofExcept value : Prog Cmd ε α).Ends fits s post ↔ post value s := by
  cases value <;> rfl

@[simp] theorem ends_require (condition : Bool) (error : ε) (s : σ)
    (post : Except ε Unit → σ → Prop) :
    (require condition error : Prog Cmd ε Unit).Ends fits s post ↔
      (condition = true → post (.ok ()) s) ∧ (condition = false → post (.error error) s) := by
  cases condition <;> simp [require]

@[simp] theorem ends_ite (c : Prop) [Decidable c] (p q : Prog Cmd ε α) (s : σ)
    (post : Except ε α → σ → Prop) :
    (if c then p else q).Ends fits s post ↔
      (c → p.Ends fits s post) ∧ (¬c → q.Ends fits s post) := by
  split <;> simp [*]

@[simp] theorem ends_bind (p : Prog Cmd ε α) (f : α → Prog Cmd ε β) (s : σ)
    (post : Except ε β → σ → Prop) :
    (p >>= f).Ends fits s post ↔ p.Ends fits s fun result t => match result with
      | .ok value => (f value).Ends fits t post
      | .error error => post (.error error) t := by
  induction p generalizing s with
  | ret value => rfl
  | fail error => rfl
  | call command next ih => exact forall_congr' fun _ => ih _ _

@[simp] theorem ends_mapError (h : ε → ε') (p : Prog Cmd ε α) (s : σ)
    (post : Except ε' α → σ → Prop) :
    (p.mapError h).Ends fits s post ↔
      p.Ends fits s fun result t => post (result.mapError h) t := by
  induction p generalizing s with
  | ret value => rfl
  | fail error => rfl
  | call command next ih => exact forall_congr' fun _ => ih _ _

@[simp] theorem ends_result (p : Prog Cmd ε α) (s : σ)
    (post : Except ε' (Except ε α) → σ → Prop) :
    (p.result : Prog Cmd ε' (Except ε α)).Ends fits s post ↔
      p.Ends fits s fun result t => post (.ok result) t := by
  induction p generalizing s with
  | ret value => rfl
  | fail error => rfl
  | call command next ih => exact forall_congr' fun _ => ih _ _

end Ends

/-! Invariants of runs alone. `Keeps fits inv p s`: from the invariant in `s` on, it holds at every
moment of the run of `p`, as long as the commands fit the states that they meet. -/

section Keeps

variable [Machine Cmd σ] (fits : {β : Type} → Cmd β → σ → Prop) (inv : σ → Prop)

/-- The invariant holds at every moment of the run, as long as the commands fit. -/
def Stays : Prog Cmd ε α → σ → Prop
  | .ret _, s => inv s
  | .fail _, s => inv s
  | .call command next, s =>
    inv s ∧ (fits command s → Stays (next (Machine.exec command s).1) (Machine.exec command s).2)

def Keeps (p : Prog Cmd ε α) (s : σ) : Prop := inv s → p.Stays fits inv s

/-- A run from the invariant whose commands fit ends with the value in the state. -/
@[grind =] def Reaches (p : Prog Cmd ε α) (s : σ) (value : α) (t : σ) : Prop :=
  inv s ∧ p.Fits fits s ∧ p.run s = (.ok value, t)

variable {fits inv}

theorem Stays.start {p : Prog Cmd ε α} {s : σ} (stays : p.Stays fits inv s) : inv s := by
  cases p with
  | ret value => exact stays
  | fail error => exact stays
  | call command next => exact stays.1

theorem Stays.run {p : Prog Cmd ε α} {s : σ} (stays : p.Stays fits inv s) (fit : p.Fits fits s) :
    inv (p.run s).2 := by
  induction p generalizing s with
  | ret value => exact stays
  | fail error => exact stays
  | call command next ih => exact ih _ (stays.2 fit.1) fit.2

theorem stays_bind {p : Prog Cmd ε α} {f : α → Prog Cmd ε β} {s : σ} :
    (p >>= f).Stays fits inv s ↔ p.Stays fits inv s ∧
      ∀ value t, p.Fits fits s → p.run s = (.ok value, t) → (f value).Stays fits inv t := by
  induction p generalizing s with
  | ret value =>
    simp only [ret_bind, Stays, Fits, run_ret, Prod.mk.injEq, Except.ok.injEq, true_imp_iff,
      and_imp]
    refine ⟨fun stays => ⟨stays.start, ?_⟩, fun both => both.2 _ _ rfl rfl⟩
    rintro _ _ rfl rfl
    exact stays
  | fail error => simp [Stays, Fits]
  | call command next ih =>
    simp only [call_bind, Stays, ih, Fits, run_call, and_assoc]
    refine and_congr_right fun _ => ⟨fun both => ⟨fun fit => (both fit).1,
      fun value t fit ran => (both fit.1).2 value t fit.2 ran⟩, ?_⟩
    rintro ⟨first, rest⟩ fit
    exact ⟨first fit, fun value t fits ran => rest value t ⟨fit, fits⟩ ran⟩

@[simp] theorem reaches_issue (command : Cmd α) (s : σ) (value : α) (t : σ) :
    (issue command : Prog Cmd ε α).Reaches fits inv s value t ↔
      inv s ∧ fits command s ∧ Machine.exec command s = (value, t) := by
  simp [Reaches, issue, Fits, Prod.ext_iff]

@[simp] theorem reaches_ofOption (error : ε) (value : Option α) (s : σ) (found : α) (t : σ) :
    (ofOption error value : Prog Cmd ε α).Reaches fits inv s found t ↔
      inv s ∧ value = some found ∧ s = t := by
  cases value <;> simp [Reaches, ofOption, Fits]

@[simp] theorem reaches_require (condition : Bool) (error : ε) (s : σ) (value : Unit) (t : σ) :
    (require condition error : Prog Cmd ε Unit).Reaches fits inv s value t ↔
      inv s ∧ condition = true ∧ s = t := by
  cases condition <;> simp [Reaches, require, Fits]

@[simp] theorem reaches_mapError (h : ε → ε') (p : Prog Cmd ε α) (s : σ) (value : α) (t : σ) :
    (p.mapError h).Reaches fits inv s value t ↔ p.Reaches fits inv s value t := by
  have fit : (p.mapError h).Fits fits s ↔ p.Fits fits s := by
    induction p generalizing s with
    | ret value => rfl
    | fail error => rfl
    | call command next ih => exact and_congr_right fun _ => ih _ _
  simp only [Reaches, fit, run_mapError]
  rcases p.run s with ⟨_ | _, _⟩ <;> simp [Except.mapError]

@[simp] theorem keeps_ret (value : α) (s : σ) :
    (ret value : Prog Cmd ε α).Keeps fits inv s := fun start => start

@[simp] theorem keeps_fail (error : ε) (s : σ) :
    (fail error : Prog Cmd ε α).Keeps fits inv s := fun start => start

@[simp] theorem keeps_ofOption (error : ε) (value : Option α) (s : σ) :
    (ofOption error value : Prog Cmd ε α).Keeps fits inv s := by
  cases value <;> exact fun start => start

@[simp] theorem keeps_ofExcept (value : Except ε α) (s : σ) :
    (ofExcept value : Prog Cmd ε α).Keeps fits inv s := by
  cases value <;> exact fun start => start

@[simp] theorem keeps_require (condition : Bool) (error : ε) (s : σ) :
    (require condition error : Prog Cmd ε Unit).Keeps fits inv s := by
  cases condition <;> exact fun start => start

@[simp] theorem keeps_ite (c : Prop) [Decidable c] (p q : Prog Cmd ε α) (s : σ) :
    (if c then p else q).Keeps fits inv s ↔
      (c → p.Keeps fits inv s) ∧ (¬c → q.Keeps fits inv s) := by
  split <;> simp [*]

@[simp] theorem keeps_bind (p : Prog Cmd ε α) (f : α → Prog Cmd ε β) (s : σ) :
    (p >>= f).Keeps fits inv s ↔ p.Keeps fits inv s ∧
      ∀ value t, p.Reaches fits inv s value t → (f value).Keeps fits inv t := by
  simp only [Keeps, stays_bind, Reaches]
  constructor
  · exact fun keeps => ⟨fun start => (keeps start).1, fun value t reached _ =>
      (keeps reached.1).2 value t reached.2.1 reached.2.2⟩
  · rintro ⟨first, rest⟩ start
    refine ⟨first start, fun value t fit ran => rest value t ⟨start, fit, ran⟩ ?_⟩
    have kept := (first start).run fit
    rwa [ran] at kept

@[simp] theorem keeps_mapError (h : ε → ε') (p : Prog Cmd ε α) (s : σ) :
    (p.mapError h).Keeps fits inv s ↔ p.Keeps fits inv s := by
  have same : (p.mapError h).Stays fits inv s ↔ p.Stays fits inv s := by
    induction p generalizing s with
    | ret value => rfl
    | fail error => rfl
    | call command next ih => exact and_congr_right fun _ => imp_congr_right fun _ => ih _ _
  exact imp_congr_right fun _ => same

@[simp] theorem keeps_result (p : Prog Cmd ε α) (s : σ) :
    (p.result : Prog Cmd ε' (Except ε α)).Keeps fits inv s ↔ p.Keeps fits inv s := by
  have same : (p.result : Prog Cmd ε' (Except ε α)).Stays fits inv s ↔ p.Stays fits inv s := by
    induction p generalizing s with
    | ret value => rfl
    | fail error => rfl
    | call command next ih => exact and_congr_right fun _ => imp_congr_right fun _ => ih _ _
  exact imp_congr_right fun _ => same

@[simp] theorem keeps_quiet (p : Prog Cmd ε α) (s : σ) :
    (p.quiet : Prog Cmd ε' Unit).Keeps fits inv s ↔ p.Keeps fits inv s := by
  have same : (p.quiet : Prog Cmd ε' Unit).Stays fits inv s ↔ p.Stays fits inv s := by
    induction p generalizing s with
    | ret value => rfl
    | fail error => rfl
    | call command next ih => exact and_congr_right fun _ => imp_congr_right fun _ => ih _ _
  exact imp_congr_right fun _ => same

theorem keeps_issue {command : Cmd α} {s : σ}
    (kept : fits command s → inv s → inv (Machine.exec command s).2) :
    (issue command : Prog Cmd ε α).Keeps fits inv s :=
  fun start => ⟨start, fun fit => kept fit start⟩

theorem keeps_attempt {command : Cmd (Except ε α)} {s : σ}
    (kept : fits command s → inv s → inv (Machine.exec command s).2) :
    (attempt command).Keeps fits inv s :=
  fun start => ⟨start, fun fit => by
    cases (Machine.exec command s).1 <;> exact kept fit start⟩

/-- What every allowed and fitting command keeps, a program of such commands keeps. -/
theorem Within.keeps {allowed : {β : Type} → Cmd β → Prop} {p : Prog Cmd ε α}
    (inner : p.Within allowed)
    (kept : ∀ {β : Type} (command : Cmd β) (s : σ), allowed command → fits command s →
      inv s → inv (Machine.exec command s).2) (s : σ) : p.Keeps fits inv s := by
  induction p generalizing s with
  | ret value => exact fun start => start
  | fail error => exact fun start => start
  | call command next ih => exact fun start =>
      ⟨start, fun fit => ih _ (inner.2 _) _ (kept command s inner.1 fit start)⟩

end Keeps

end Prog

end Tomb.Lib
