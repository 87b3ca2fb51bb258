import Mathlib.Data.List.Induction
import Tomb.Haruspex.Webauthn.Ceremony
import Tomb.Lib.Pool

/-! Challenges are single use: whatever the interleaving of the calls that take them, a nonce is
answered at most once, to the kind it was saved with and before it expires. -/
namespace Tomb.Haruspex.Webauthn
open Tomb.Lib

inductive FinishCall where
  | take (nonce : Uuid) (expectedKind : ChallengeKind) (now : Int)
  | registerFinish (rp : PasskeyRp) (origin : String) (nonce : Uuid) (credential : String)
      (nodeId : Option String) (now : Int)
  | loginFinish (rp : PasskeyRp) (origin : String) (nonce : Uuid) (credential : String)
      (nodeId : Option String) (now : Int)

def FinishCall.prog : FinishCall → Ceremony Unit
  | .take nonce expectedKind now => do
    let _ ← Prog.issue (.takeChallenge nonce expectedKind now)
  | .registerFinish rp origin nonce credential nodeId now => do
    let _ ← Webauthn.registerFinish rp origin nonce credential nodeId now
  | .loginFinish rp origin nonce credential nodeId now => do
    let _ ← Webauthn.loginFinish rp origin nonce credential nodeId now

structure Take where
  nonce : Uuid
  expectedKind : ChallengeKind
  now : Int
  answer : Option Challenge

def takeOf : Event Cmd → Option Take
  | ⟨.takeChallenge nonce expectedKind now, answer⟩ => some ⟨nonce, expectedKind, now, answer⟩
  | _ => none

def takes {α : Type} (pool : Pool Cmd Stores WebauthnError α) : List Take :=
  pool.threads.flatMap fun thread => thread.past.filterMap takeOf

def Take.yields (nonce : Uuid) (take : Take) : Bool :=
  decide (take.nonce = nonce) && take.answer.isSome

def taking : Protocol Cmd (List Take) where
  start := []
  next made {_} command answer := made ++ (takeOf ⟨command, answer⟩).toList
  legal _ {_} command := command.effect ≠ .saveChallenge
  final _ _ := True

theorem taking_stage (past : List (Event Cmd)) :
    taking.stage past = past.filterMap takeOf := by
  induction past using List.reverseRecOn with
  | nil => rfl
  | append_singleton past event ih =>
    rw [Protocol.stage_snoc, ih, List.filterMap_append]
    cases made : takeOf event <;> simp [taking, made]

theorem finishCall_follows (call : FinishCall) :
    (Thread.start call.prog).Obeys taking := by
  have uses : call.prog.Within (Cmd.Uses {effect | effect ≠ .saveChallenge}) := by
    cases call <;> simp [FinishCall.prog, Cmd.effect, Set.insert_subset_iff]
  exact Protocol.follows_of_legal (uses.imp fun _ used _ => used) fun _ _ => trivial

/-- The state of the takes `made` against the challenges that were there at the start. -/
structure SingleUse (start : Stores) (made : List Take) (s : Stores) : Prop where
  only : ∀ row ∈ s.challenges, row ∈ start.challenges
  once : ∀ nonce, made.countP (Take.yields nonce) ≤ 1
  gone : ∀ row ∈ s.challenges, ∀ take ∈ made, take.nonce = row.nonce → take.answer = none
  honest : ∀ take ∈ made, ∀ challenge, take.answer = some challenge →
    ∃ row ∈ start.challenges, row.nonce = take.nonce ∧ row.kind = take.expectedKind ∧
      take.now < row.expiresAt ∧ challenge = row.toChallenge row.kind
  kept : ∀ row ∈ start.challenges, row ∈ s.challenges ∨
    (∃ take ∈ made, take.nonce = row.nonce ∧ take.expectedKind = row.kind ∧
      take.answer.isSome) ∨
    ∃ take ∈ made, row.expiresAt ≤ take.now

section Take

variable {s : Stores} {nonce : Uuid} {expectedKind : ChallengeKind} {now : Int}

theorem takeChallenge_some {challenge : Challenge}
    (answer : (s.takeChallenge nonce expectedKind now).1 = some challenge) :
    (∃ row ∈ s.challenges, row.nonce = nonce ∧ row.kind = expectedKind ∧ now < row.expiresAt ∧
      challenge = row.toChallenge row.kind) ∧
    ∀ row ∈ (s.takeChallenge nonce expectedKind now).2.challenges, row.nonce ≠ nonce := by
  unfold Stores.takeChallenge at answer ⊢
  dsimp only at answer ⊢
  split at answer
  · cases answer
  · rename_i row found
    obtain ⟨present, rfl⟩ := (Table.get_eq_some _ _ _).mp found
    split at answer
    · cases answer
    · split at answer
      · cases answer
      · rename_i fresh kind
        rw [Table.mem_deleteWhere] at present
        obtain rfl := not_not.mp kind
        refine ⟨⟨row, present.1, rfl, rfl, not_le.mp fresh, (Option.some.inj answer).symm⟩, ?_⟩
        simp [fresh]

theorem takeChallenge_mem {row : ChallengeRow}
    (present : row ∈ (s.takeChallenge nonce expectedKind now).2.challenges) :
    row ∈ s.challenges := by
  unfold Stores.takeChallenge at present
  dsimp only at present
  split at present
  · simp_all
  · split at present
    · simp_all
    · split at present <;> simp_all

theorem takeChallenge_kept {row : ChallengeRow} (present : row ∈ s.challenges)
    (fresh : now < row.expiresAt)
    (unanswered : ¬(row.nonce = nonce ∧ row.kind = expectedKind ∧
      (s.takeChallenge nonce expectedKind now).1.isSome)) :
    row ∈ (s.takeChallenge nonce expectedKind now).2.challenges := by
  have survives : row ∈ s.challenges.deleteWhere fun row => decide (row.expiresAt ≤ now) := by
    simp [present, fresh]
  unfold Stores.takeChallenge at unanswered ⊢
  dsimp only at unanswered ⊢
  split
  · exact survives
  · rename_i other found
    split
    · exact survives
    · split
      · exact survives
      · rename_i live kind
        rw [Table.mem_deleteWhere]
        refine ⟨survives, decide_eq_false fun same => ?_⟩
        have equal : row = other := by
          have := (Table.get_eq_some _ _ _).mpr ⟨survives, same⟩
          exact Option.some.inj (this.symm.trans found)
        subst equal
        exact unanswered ⟨same, not_not.mp kind, by simp [found, live, kind]⟩

end Take

namespace SingleUse

variable {start s s' : Stores} {made : List Take}

theorem perm (holds : SingleUse start made s) {made' : List Take} (same : made'.Perm made) :
    SingleUse start made' s where
  only := holds.only
  once nonce := by rw [same.countP_eq]; exact holds.once nonce
  gone row present take known := holds.gone row present take (same.mem_iff.mp known)
  honest take known := holds.honest take (same.mem_iff.mp known)
  kept row present := by simpa only [same.mem_iff] using holds.kept row present

theorem take (holds : SingleUse start made s) (nonce : Uuid) (expectedKind : ChallengeKind)
    (now : Int) :
    SingleUse start
      (⟨nonce, expectedKind, now, (s.takeChallenge nonce expectedKind now).1⟩ :: made)
      (s.takeChallenge nonce expectedKind now).2 where
  only row present := holds.only row (takeChallenge_mem present)
  once other := by
    rw [List.countP_cons]
    split
    · rename_i yields
      simp only [Take.yields, Bool.and_eq_true, decide_eq_true_eq] at yields
      obtain ⟨rfl, answered⟩ := yields
      obtain ⟨challenge, answer⟩ := Option.isSome_iff_exists.mp answered
      obtain ⟨⟨row, present, rfl, -⟩, -⟩ := takeChallenge_some answer
      have none_before : made.countP (Take.yields row.nonce) = 0 := by
        rw [List.countP_eq_zero]
        intro take known
        by_cases same : take.nonce = row.nonce
        · simp [Take.yields, holds.gone row present take known same]
        · simp [Take.yields, same]
      omega
    · exact holds.once other
  gone row present take known same := by
    rcases List.mem_cons.mp known with rfl | known
    · cases answer : (s.takeChallenge nonce expectedKind now).1 with
      | none => rfl
      | some challenge => exact absurd same.symm ((takeChallenge_some answer).2 row present)
    · exact holds.gone row (takeChallenge_mem present) take known same
  honest take known challenge answer := by
    rcases List.mem_cons.mp known with rfl | known
    · obtain ⟨⟨row, present, found⟩, -⟩ := takeChallenge_some answer
      exact ⟨row, holds.only row present, found⟩
    · exact holds.honest take known challenge answer
  kept row present := by
    rcases holds.kept row present with still | ⟨take, known, found⟩ | ⟨take, known, found⟩
    · by_cases fresh : now < row.expiresAt
      · by_cases answered : row.nonce = nonce ∧ row.kind = expectedKind ∧
            (s.takeChallenge nonce expectedKind now).1.isSome
        · exact .inr (.inl ⟨_, List.mem_cons_self, answered.1.symm, answered.2.1.symm,
            answered.2.2⟩)
        · exact .inl (takeChallenge_kept still fresh answered)
      · exact .inr (.inr ⟨_, List.mem_cons_self, not_lt.mp fresh⟩)
    · exact .inr (.inl ⟨take, List.mem_cons_of_mem _ known, found⟩)
    · exact .inr (.inr ⟨take, List.mem_cons_of_mem _ known, found⟩)

theorem frame (holds : SingleUse start made s) (same : s'.challenges = s.challenges) :
    SingleUse start made s' where
  only row present := holds.only row (same ▸ present)
  once := holds.once
  gone row present := holds.gone row (same ▸ present)
  honest := holds.honest
  kept row present := by rw [same]; exact holds.kept row present

end SingleUse

theorem takes_eq_views {α : Type} (pool : Pool Cmd Stores WebauthnError α) :
    takes pool = (pool.threads.map (Thread.view taking)).flatMap Prod.fst := by
  simp only [takes, List.flatMap_map, Thread.view, taking_stage]

theorem challenges_writes {effect : Cmd.Effect} (writes : Relation.challenges ∈ effect.writes) :
    effect = .saveChallenge ∨ effect = .takeChallenge := by
  cases effect <;> simp [Cmd.Effect.writes] at writes ⊢

theorem SingleUse.step {start s : Stores} {earlier own later : List Take} {β : Type}
    {command : Cmd β} (legal : command.effect ≠ .saveChallenge)
    (holds : SingleUse start (earlier ++ (own ++ later)) s) :
    SingleUse start (earlier ++
      (own ++ (takeOf ⟨command, (command.exec s).1⟩).toList ++ later)) (command.exec s).2 := by
  by_cases takes : command.effect = .takeChallenge
  · cases command <;> simp only [Cmd.effect, reduceCtorEq] at takes
    rename_i nonce expectedKind now
    refine (holds.take nonce expectedKind now).perm ?_
    simp only [takeOf, Cmd.exec, Option.toList_some, List.append_assoc, List.singleton_append]
    exact (List.perm_middle.append_left earlier).trans List.perm_middle
  · have silent : takeOf ⟨command, (command.exec s).1⟩ = none := by
      cases command <;> first | rfl | exact absurd rfl takes
    rw [silent, Option.toList_none, List.append_nil]
    have other : Relation.challenges ∉ command.effect.writes := fun writes =>
      (challenges_writes writes).elim legal takes
    exact holds.frame (command.exec_frame s other)

/-- Challenges are single use. Over every run of concurrent takes and ceremony ends, each with its
own time, and whatever else changes the other tables: a nonce is answered at most once; an answer
goes to the kind that was saved, before the expiry, and carries what was saved; and a saved
challenge is still there unless it was answered or had expired for some caller. -/
theorem challenges_single_use (s : Stores) (calls : List FinishCall)
    (pool : Pool Cmd Stores WebauthnError Unit)
    (run : Pool.Run (fun s s' => s'.challenges = s.challenges) Guard.any
      (Pool.start s (calls.map FinishCall.prog)) pool) :
    (∀ nonce, (takes pool).countP (Take.yields nonce) ≤ 1) ∧
    (∀ take ∈ takes pool, ∀ challenge, take.answer = some challenge →
      ∃ row ∈ s.challenges, row.nonce = take.nonce ∧ row.kind = take.expectedKind ∧
        take.now < row.expiresAt ∧ challenge = row.toChallenge row.kind) ∧
    ∀ row ∈ s.challenges, row ∈ pool.state.challenges ∨
      (∃ take ∈ takes pool, take.nonce = row.nonce ∧ take.expectedKind = row.kind ∧
        take.answer.isSome) ∨
      ∃ take ∈ takes pool, row.expiresAt ≤ take.now := by
  have obeys : ∀ thread ∈ (Pool.start s (calls.map FinishCall.prog)).threads,
      thread.Obeys taking := by
    simp only [Pool.start, List.map_map, List.forall_mem_map]
    exact fun call _ => finishCall_follows call
  have first : SingleUse s
      (((calls.map FinishCall.prog).map Thread.start).map (Thread.view taking) |>.flatMap
        Prod.fst) s := by
    have silent : (((calls.map FinishCall.prog).map Thread.start).map (Thread.view taking)
        |>.flatMap Prod.fst) = [] := by
      simp [List.flatMap_eq_nil_iff, Thread.view, taking, Protocol.stage, Thread.start]
    rw [silent]
    exact ⟨fun _ present => present, by simp, by simp, by simp, fun _ present => .inl present⟩
  have holds := (Pool.Run.keeps taking (fun state views => SingleUse s (views.flatMap Prod.fst) state)
    (fun same holds => holds.frame same)
    (fun _ _ legal _ holds => by
      simp only [List.flatMap_append, List.flatMap_cons] at holds ⊢
      exact holds.step legal)
    obeys first run).2
  rw [takes_eq_views]
  exact ⟨holds.once, holds.honest, holds.kept⟩

def oneChallenge : Stores :=
  { Stores.empty with
    challenges := (∅ : Table ChallengeRow.nonce).upsert
      { nonce := .v4 0
        kind := .registration
        challengeJson := "state"
        identityId := none
        username := none
        isAccountLink := false
        inviteCode := none
        createdAt := 0
        expiresAt := 900 } }

/-- Three takes of one nonce, the first of the wrong kind: exactly one is answered. -/
theorem challenges_single_use_of_three :
    (takes ((Pool.start oneChallenge ([.take (.v4 0) .authentication 10,
      .take (.v4 0) .registration 20, .take (.v4 0) .registration 30].map
        FinishCall.prog)).schedule [0, 1, 2])).countP (Take.yields (.v4 0)) = 1 :=
  le_antisymm ((challenges_single_use oneChallenge _ _ (Pool.run_schedule _ _)).1 (.v4 0))
    (by decide)

end Tomb.Haruspex.Webauthn
