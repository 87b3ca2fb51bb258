import Tomb.Lib.Entries
import Tomb.Lib.Runs

/-! Opening the database of the blob store from several tabs. The browser serves the requests to open
it in any order; one that names a higher version than the database has upgrades it, as soon as no
connection is open. Each call closes its connection at some time. -/
namespace Tomb.Reliquary.Browser.OpenDb
open Tomb.Lib

def dbVersion : Nat := 3

def blobIndexes : List String := ["blake3", "blob_type", "parent_blob_id", "size", "created_at"]

def refsIndexes : List String := ["blob_id", "canvas_doc_id"]

structure Stores where
  (blobs refs : Option (List String))

namespace Stores

variable (stores : Stores)

def hasAllIndexes : Bool :=
  match stores.blobs, stores.refs with
  | some blobs, some refs => blobIndexes.all blobs.contains && refsIndexes.all refs.contains
  | _, _ => false

def addMissing (required names : List String) : List String :=
  names ++ required.filter (· ∉ names)

def upgraded : Stores where
  blobs := some (addMissing blobIndexes (stores.blobs.getD []))
  refs := some (addMissing refsIndexes (stores.refs.getD []))

theorem upgraded_hasAllIndexes : stores.upgraded.hasAllIndexes = true := by
  have all : ∀ required names : List String,
      required.all (addMissing required names).contains = true := by
    intro required names
    rw [List.all_eq_true]
    intro name wanted
    rw [List.contains_iff_mem, addMissing, List.mem_append, List.mem_filter]
    by_cases there : name ∈ names
    · exact .inl there
    · exact .inr ⟨wanted, decide_eq_true there⟩
  rw [hasAllIndexes, upgraded, Bool.and_eq_true]
  exact ⟨all _ _, all _ _⟩

end Stores

/-- What a call asks the browser for: the version that its tab has cached, `DB_VERSION`, whatever
version there is, the version that was found so, and one that is higher. -/
inductive Goal where
  | cached (version : Nat)
  | first
  | probe
  | reopen (version : Nat)
  | repair (version : Nat)
  deriving DecidableEq

def Goal.version : Goal → Option Nat
  | .cached version | .reopen version | .repair version => some version
  | .first => some dbVersion
  | .probe => none

/-- Where a call is. `opened` and `refused` wait for their turn to go on; a call that has resolved says
whether its database had all the indexes. -/
inductive Stage where
  | new
  | asked (goal : Goal)
  | opened (goal : Goal) (version : Nat)
  | refused (goal : Goal)
  | resolved (complete : Bool)
  | closed (complete : Bool)
  | failed
  deriving DecidableEq

structure Call where
  tab : Nat
  stage : Stage
  deriving DecidableEq

def Stage.connected : Stage → Bool
  | .opened .. | .resolved _ => true
  | _ => false

def Stage.left : Stage → Nat
  | .new => 10
  | .asked .first => 9
  | .opened .first _ | .refused .first => 8
  | .asked .probe => 7
  | .opened .probe _ => 6
  | .asked (.reopen _) => 5
  | .opened (.reopen _) _ => 4
  | .asked (.cached _) | .asked (.repair _) => 3
  | .opened (.cached _) _ | .opened (.repair _) _ | .refused _ => 2
  | .resolved _ => 1
  | .closed _ | .failed => 0

def Stage.overtaken (version : Nat) : Stage → Bool
  | .asked (.cached named) | .asked (.reopen named) | .asked (.repair named) => named < version
  | _ => false

structure Origin where
  /-- 0 if there is no database. -/
  version : Nat
  stores : Stores
  /-- What each tab has cached. -/
  resolvedVersions : List (Option Nat)
  calls : List Call

/-- `start` begins a call, `serve` answers its request, `resume` lets it go on with the answer, and
`close` is done by whoever it has resolved for. -/
inductive Op where
  | start (call : Nat)
  | serve (call : Nat)
  | resume (call : Nat)
  | close (call : Nat)

namespace Origin

def fresh (version : Nat) (stores : Stores) (resolvedVersions : List (Option Nat))
    (tabs : List Nat) : Origin where
  version := version
  stores := stores
  resolvedVersions := resolvedVersions
  calls := tabs.map fun tab => ⟨tab, .new⟩

variable (s : Origin)

def connected : Bool := s.calls.any (·.stage.connected)

def cachedVersion (tab : Nat) : Option Nat := s.resolvedVersions[tab]?.join

def enter (i : Nat) (call : Call) (stage : Stage) : Origin :=
  { s with calls := s.calls.set i { call with stage } }

def start (i : Nat) (call : Call) : Origin :=
  match s.cachedVersion call.tab with
  | some version => s.enter i call (.asked (.cached version))
  | none => s.enter i call (.asked .first)

def serve (i : Nat) (call : Call) (goal : Goal) : Origin :=
  match goal.version with
  | none =>
    let version := max 1 s.version
    { s with version }.enter i call (.opened goal version)
  | some version =>
    if version < s.version then s.enter i call (.refused goal)
    else if version = s.version then s.enter i call (.opened goal version)
    else if s.connected then s
    else { s with version, stores := s.stores.upgraded }.enter i call (.opened goal version)

def resolve (i : Nat) (call : Call) (version : Nat) : Origin :=
  { s with resolvedVersions := s.resolvedVersions.set call.tab (some version) }.enter i call
    (.resolved s.stores.hasAllIndexes)

def check (i : Nat) (call : Call) (version : Nat) : Origin :=
  if s.stores.hasAllIndexes then s.resolve i call version
  else s.enter i call (.asked (.repair (version + 1)))

def resumeOpened (i : Nat) (call : Call) (version : Nat) : Goal → Origin
  | .cached _ => s.enter i call (.resolved s.stores.hasAllIndexes)
  | .first => s.check i call dbVersion
  | .probe => s.enter i call (.asked (.reopen version))
  | .reopen version => s.check i call version
  | .repair version => s.resolve i call version

def resumeRefused (i : Nat) (call : Call) : Goal → Origin
  | .first => s.enter i call (.asked .probe)
  | _ => s.enter i call .failed

@[grind =] def step : Op → Origin → Origin
  | .start i, s =>
    match s.calls[i]? with
    | some ⟨tab, .new⟩ => s.start i ⟨tab, .new⟩
    | _ => s
  | .serve i, s =>
    match s.calls[i]? with
    | some ⟨tab, .asked goal⟩ => s.serve i ⟨tab, .asked goal⟩ goal
    | _ => s
  | .resume i, s =>
    match s.calls[i]? with
    | some ⟨tab, .opened goal version⟩ => s.resumeOpened i ⟨tab, .opened goal version⟩ version goal
    | some ⟨tab, .refused goal⟩ => s.resumeRefused i ⟨tab, .refused goal⟩ goal
    | _ => s
  | .close i, s =>
    match s.calls[i]? with
    | some ⟨tab, .resolved complete⟩ => s.enter i ⟨tab, .resolved complete⟩ (.closed complete)
    | _ => s

def enabled (s : Origin) : Op → Bool
  | .start i => (s.calls[i]?).any (·.stage = .new)
  | .serve i => (s.calls[i]?).any fun call =>
    match call.stage with
    | .asked goal => goal.version.all (· ≤ s.version) || !s.connected
    | _ => false
  | .resume i => (s.calls[i]?).any fun call =>
    match call.stage with
    | .opened .. | .refused _ => true
    | _ => false
  | .close i => (s.calls[i]?).any fun call =>
    match call.stage with
    | .resolved _ => true
    | _ => false

/-- No call has failed, one that has resolved has got all indexes, and none waits in vain. -/
structure Right : Prop where
  complete : ∀ call ∈ s.calls, call.stage ≠ .failed ∧
    ∀ complete, call.stage = .resolved complete ∨ call.stage = .closed complete → complete = true
  goes_on : (∃ call ∈ s.calls, ∀ complete, call.stage ≠ .closed complete) → ∃ op, s.enabled op = true

/-- A tab whose cached version is out of date, or is that of a database without all indexes, makes no
call, and no upgrade overtakes a request for a version that its tab has found or cached. -/
def fits (s : Origin) (op : Op) : Bool :=
  s.enabled op &&
    match op with
    | .start i => (s.calls[i]?).all fun call =>
      (s.cachedVersion call.tab).all fun version =>
        s.version < version || (s.version = version && s.stores.hasAllIndexes)
    | .serve i => (s.calls[i]?).all fun call =>
      match call.stage with
      | .asked goal => goal.version.all fun version =>
        version ≤ s.version || s.calls.all fun other => !other.stage.overtaken version
      | _ => true
    | _ => true

variable {s t : Origin}

/-- What holds of a call. A version that is asked for is not lower than the database's. -/
def Good (s : Origin) : Stage → Prop
  | .new | .asked .first => True
  | .asked .probe => 0 < s.version
  | .asked (.cached version) | .asked (.repair version) =>
    s.version ≤ version ∧ (version = s.version → s.stores.hasAllIndexes = true)
  | .asked (.reopen version) => s.version ≤ version
  | .opened goal version => version = s.version ∧ (∀ named ∈ goal.version, version = named) ∧
      (∀ named, goal = .cached named ∨ goal = .repair named → s.stores.hasAllIndexes = true)
  | .refused goal => goal = .first ∧ dbVersion < s.version
  | .resolved complete | .closed complete => complete = true
  | .failed => False

def Invariant (s : Origin) : Prop := ∀ call ∈ s.calls, s.Good call.stage

variable {call : Call}

theorem Invariant.enter (inv : s.Invariant) {i : Nat} {stage : Stage}
    (keeps : ∀ call ∈ s.calls, s.Good call.stage → t.Good call.stage) (calls : t.calls = s.calls)
    (good : t.Good stage) : (t.enter i call stage).Invariant := by
  intro other member
  rcases List.mem_or_eq_of_mem_set member with member | rfl
  · exact keeps other (calls ▸ member) (inv other (calls ▸ member))
  · exact good

theorem Invariant.start (inv : s.Invariant) {i : Nat}
    (current : (s.cachedVersion call.tab).all (fun version =>
      s.version < version || (s.version = version && s.stores.hasAllIndexes)) = true) :
    (s.start i call).Invariant := by
  unfold Origin.start
  split
  · rename_i version cached
    rw [cached] at current
    refine inv.enter (fun _ _ good => good) rfl ?_
    simp only [Option.all_some, Bool.or_eq_true, decide_eq_true_eq, Bool.and_eq_true] at current
    refine ⟨?_, fun same => ?_⟩
    · omega
    · exact (current.resolve_left (by omega)).2
  · exact inv.enter (fun _ _ good => good) rfl trivial

variable {version : Nat}

theorem Good.upgrade {stage : Stage} (good : s.Good stage)
    (higher : s.version < version) (apart : stage.connected = false)
    (waits : stage.overtaken version = false) :
    { s with version, stores := s.stores.upgraded }.Good stage := by
  cases stage with
  | new => trivial
  | asked goal =>
    cases goal with
    | first => trivial
    | probe => exact Nat.zero_lt_of_lt higher
    | cached named | repair named =>
      exact ⟨Nat.le_of_not_lt (of_decide_eq_false waits), fun _ => s.stores.upgraded_hasAllIndexes⟩
    | reopen named => exact Nat.le_of_not_lt (of_decide_eq_false waits)
  | opened goal version => exact Bool.noConfusion apart
  | refused goal => exact ⟨good.1, good.2.trans higher⟩
  | resolved complete => exact Bool.noConfusion apart
  | closed complete => exact good
  | failed => exact good.elim

variable {goal : Goal}

theorem Invariant.serve (inv : s.Invariant) {i : Nat}
    (member : call ∈ s.calls) (asks : call.stage = .asked goal)
    (free : ∀ version ∈ goal.version, s.version < version →
      ∀ other ∈ s.calls, other.stage.overtaken version = false) :
    (s.serve i call goal).Invariant := by
  have good := inv call member
  rw [asks] at good
  unfold Origin.serve
  split
  · rename_i none
    obtain rfl : goal = .probe := by cases goal <;> first | rfl | exact nomatch none
    have there : max 1 s.version = s.version := Nat.max_eq_right good
    rw [there]
    exact inv.enter (fun _ _ good => good) rfl ⟨rfl, nofun, fun _ other => other.elim nofun nofun⟩
  · rename_i version named
    split
    · rename_i lower
      refine inv.enter (fun _ _ good => good) rfl ?_
      cases goal with
      | first => exact ⟨rfl, Option.some.inj named ▸ lower⟩
      | probe => exact nomatch named
      | cached v | repair v =>
        obtain rfl := Option.some.inj named
        exact absurd good.1 (Nat.not_le_of_lt lower)
      | reopen v =>
        obtain rfl := Option.some.inj named
        exact absurd good (Nat.not_le_of_lt lower)
    · rename_i not_lower
      split
      · rename_i same
        refine inv.enter (fun _ _ good => good) rfl ⟨same, fun v asked => ?_, fun v case => ?_⟩
        · exact Option.some.inj (named.symm.trans asked)
        · rcases case with rfl | rfl
          · exact good.2 ((Option.some.inj named).trans same)
          · exact good.2 ((Option.some.inj named).trans same)
      · rename_i differs
        have higher : s.version < version := by omega
        split
        · exact inv
        · rename_i apart
          refine inv.enter (fun other known good => good.upgrade higher ?_ ?_) rfl
            ⟨rfl, fun v asked => ?_, fun _ _ => s.stores.upgraded_hasAllIndexes⟩
          · exact Bool.eq_false_iff.mpr fun open_ => apart (List.any_eq_true.mpr ⟨other, known, open_⟩)
          · exact free version named higher other known
          · exact Option.some.inj (named.symm.trans asked)

theorem Invariant.resolve (inv : s.Invariant) {i : Nat}
    (complete : s.stores.hasAllIndexes = true) : (s.resolve i call version).Invariant :=
  inv.enter (fun _ _ good => good) rfl complete

theorem Invariant.check (inv : s.Invariant) {i : Nat}
    (same : version = s.version) : (s.check i call version).Invariant := by
  unfold Origin.check
  split
  · rename_i complete
    exact inv.resolve complete
  · refine inv.enter (fun _ _ good => good) rfl ⟨by omega, fun now => ?_⟩
    omega

theorem Invariant.resumeOpened (inv : s.Invariant) {i : Nat} (good : s.Good (.opened goal version)) :
    (s.resumeOpened i call version goal).Invariant := by
  obtain ⟨same, named, complete⟩ := good
  cases goal with
  | cached v => exact inv.enter (fun _ _ good => good) rfl (complete v (.inl rfl))
  | first => exact inv.check ((named dbVersion rfl).symm.trans same)
  | probe => exact inv.enter (fun _ _ good => good) rfl (Nat.le_of_eq same.symm)
  | reopen v => exact inv.check ((named v rfl).symm.trans same)
  | repair v => exact inv.resolve (complete v (.inr rfl))

theorem Invariant.resumeRefused (inv : s.Invariant) {i : Nat}
    (good : s.Good (.refused goal)) : (s.resumeRefused i call goal).Invariant := by
  obtain ⟨rfl, higher⟩ := good
  exact inv.enter (fun _ _ good => good) rfl (Nat.zero_lt_of_lt higher)

theorem Invariant.step (inv : s.Invariant) {op : Op} (fits : s.fits op = true) :
    (step op s).Invariant := by
  obtain ⟨-, allowed⟩ := Bool.and_eq_true_iff.mp fits
  cases op <;> simp only [Origin.step] <;> dsimp only at allowed
  case start i =>
    split
    · rename_i found
      rw [found] at allowed
      exact inv.start allowed
    · exact inv
  case serve i =>
    split
    · rename_i tab goal found
      refine inv.serve (List.mem_of_getElem? found) rfl fun version named higher other member => ?_
      simp only [found, Option.all_some, Option.mem_def.mp named, Bool.or_eq_true,
        decide_eq_true_eq, List.all_eq_true, Bool.not_eq_true'] at allowed
      exact (allowed.resolve_left (by omega)) other member
    · exact inv
  case resume i =>
    split
    · rename_i found
      exact inv.resumeOpened (inv _ (List.mem_of_getElem? found))
    · rename_i found
      exact inv.resumeRefused (inv _ (List.mem_of_getElem? found))
    · exact inv
  case close i =>
    split
    · rename_i found
      exact inv.enter (fun _ _ good => good) rfl (inv _ (List.mem_of_getElem? found))
    · exact inv

/-! No call waits in vain, and none goes on for ever. -/

@[grind =] def work (s : Origin) : Nat := (s.calls.map (·.stage.left)).sum

theorem work_enter {i : Nat} {stage : Stage} (found : s.calls[i]? = some call)
    (calls : t.calls = s.calls) (less : stage.left < call.stage.left) :
    (t.enter i call stage).work < s.work := by
  have sum := sum_map_set (fun call : Call => call.stage.left) { call with stage } found
  rw [work, enter, calls, work]
  dsimp only at sum ⊢
  omega

theorem work_resolve {i : Nat} (found : s.calls[i]? = some call) (version : Nat)
    (less : 1 < call.stage.left) : (s.resolve i call version).work < s.work :=
  work_enter found rfl less

theorem work_check {i : Nat} (found : s.calls[i]? = some call) (version : Nat)
    (less : 3 < call.stage.left) : (s.check i call version).work < s.work := by
  unfold Origin.check
  split
  · exact work_resolve found version (by omega)
  · exact work_enter found rfl less

theorem work_serve {i tab : Nat} (found : s.calls[i]? = some ⟨tab, .asked goal⟩)
    (served : goal.version.all (· ≤ s.version) = true ∨ s.connected = false) :
    (s.serve i ⟨tab, .asked goal⟩ goal).work < s.work := by
  have opened : ∀ version, (Stage.opened goal version).left < (Stage.asked goal).left := by
    intro version
    cases goal <;> exact Nat.le_of_ble_eq_true rfl
  unfold Origin.serve
  split
  · exact work_enter found rfl (opened _)
  · rename_i version named
    split
    · refine work_enter found rfl ?_
      cases goal with
      | probe => exact nomatch named
      | _ => exact Nat.le_of_ble_eq_true rfl
    · split
      · exact work_enter found rfl (opened _)
      · split
        · rename_i higher differs connected
          rw [named, Option.all_some, decide_eq_true_iff] at served
          rcases served with lower | free
          · omega
          · exact absurd connected (Bool.eq_false_iff.mp free)
        · exact work_enter found rfl (opened _)

theorem step_work {op : Op} (enabled : s.enabled op = true) : (step op s).work < s.work := by
  cases op <;> simp only [Origin.step] <;>
    obtain ⟨⟨tab, stage⟩, found, can⟩ := (Option.any_eq_true ..).mp enabled
  case start i =>
    obtain rfl : stage = .new := of_decide_eq_true can
    rw [found]
    dsimp only
    unfold Origin.start
    split
    · exact work_enter found rfl (Nat.le_of_ble_eq_true rfl)
    · exact work_enter found rfl (Nat.le_of_ble_eq_true rfl)
  case serve i =>
    cases stage with
    | asked goal =>
      rw [found]
      exact work_serve found ((Bool.or_eq_true ..).mp can |>.imp_right (by simp))
    | _ => exact Bool.noConfusion can
  case resume i =>
    cases stage with
    | opened goal version =>
      rw [found]
      cases goal with
      | first => exact work_check found _ (Nat.le_of_ble_eq_true rfl)
      | reopen v => exact work_check found _ (Nat.le_of_ble_eq_true rfl)
      | repair v => exact work_resolve found _ (Nat.le_of_ble_eq_true rfl)
      | cached v => exact work_enter found rfl (Nat.le_of_ble_eq_true rfl)
      | probe => exact work_enter found rfl (Nat.le_of_ble_eq_true rfl)
    | refused goal =>
      rw [found]
      cases goal <;> exact work_enter found rfl (Nat.le_of_ble_eq_true rfl)
    | _ => exact Bool.noConfusion can
  case close i =>
    cases stage with
    | resolved complete =>
      rw [found]
      exact work_enter found rfl (Nat.le_of_ble_eq_true rfl)
    | _ => exact Bool.noConfusion can

/-- A call that has nothing to do but wait for the others' connections to be closed can go on when
none is open. -/
theorem goes_on (waiting : ∃ call ∈ s.calls, call.stage ≠ .failed ∧
    ∀ complete, call.stage ≠ .closed complete) : ∃ op, s.enabled op = true := by
  by_cases connected : s.connected = true
  · obtain ⟨call, member, connected⟩ := List.any_eq_true.mp connected
    obtain ⟨i, found⟩ := List.mem_iff_getElem?.mp member
    cases stage : call.stage with
    | opened goal version => exact ⟨.resume i, by simp [enabled, found, stage]⟩
    | resolved complete => exact ⟨.close i, by simp [enabled, found, stage]⟩
    | _ => rw [stage] at connected; exact Bool.noConfusion connected
  · obtain ⟨call, member, standing, open_⟩ := waiting
    obtain ⟨i, found⟩ := List.mem_iff_getElem?.mp member
    cases stage : call.stage with
    | new => exact ⟨.start i, by simp [enabled, found, stage]⟩
    | asked goal => exact ⟨.serve i, by simp [enabled, found, stage, connected]⟩
    | opened goal version | refused goal => exact ⟨.resume i, by simp [enabled, found, stage]⟩
    | resolved complete => exact ⟨.close i, by simp [enabled, found, stage]⟩
    | closed complete => exact absurd stage (open_ complete)
    | failed => exact absurd stage standing

theorem Invariant.right (inv : s.Invariant) : s.Right where
  complete call member := by
    have good := inv call member
    refine ⟨fun failed => ?_, fun complete resolved => ?_⟩
    · rw [failed] at good
      exact good
    · rcases resolved with same | same <;> (rw [same] at good; exact good)
  goes_on waiting := by
    obtain ⟨call, member, open_⟩ := waiting
    refine goes_on ⟨call, member, fun failed => ?_, open_⟩
    have good := inv call member
    rw [failed] at good
    exact good

theorem fresh_invariant (version : Nat) (stores : Stores) (resolvedVersions : List (Option Nat))
    (tabs : List Nat) : (fresh version stores resolvedVersions tabs).Invariant := by
  intro call member
  obtain ⟨tab, -, rfl⟩ := List.mem_map.mp member
  trivial

/-- In every run whose steps fit, whatever there is at the start, every call resolves with a database
that has all indexes: none fails, one that has resolved has them all, and after at most ten steps a
call there is nothing left to do. -/
theorem openDb_of_run {version : Nat} {stores : Stores} {resolvedVersions : List (Option Nat)}
    {tabs : List Nat} {ops taken : List Op}
    (fits : Meets step (fun op s => s.fits op = true) ops
      (fresh version stores resolvedVersions tabs)) (initial : taken <+: ops) :
    (runAll step taken (fresh version stores resolvedVersions tabs)).Right ∧
      taken.length ≤ 10 * tabs.length := by
  have start := fresh_invariant version stores resolvedVersions tabs
  have keeps : ∀ op s, s.fits op = true → s.Invariant → (step op s).Invariant :=
    fun _ _ fits inv => inv.step fits
  have falls : ∀ op (s : Origin), s.fits op = true → s.Invariant → (step op s).work < s.work :=
    fun _ _ fits _ => step_work (Bool.and_eq_true_iff.mp fits).1
  refine ⟨((fits.of_prefix initial).keeps keeps start).right, ?_⟩
  have few := (fits.of_prefix initial).length_le work keeps falls start
  have all : (fresh version stores resolvedVersions tabs).work = 10 * tabs.length := by
    simp [work, fresh, Function.comp_def, Stage.left, Nat.mul_comm]
  omega

def oneAfterTheOther : List Op :=
  [.start 0, .serve 0, .resume 0, .serve 0, .resume 0, .start 1, .serve 0, .resume 0, .serve 0,
    .resume 0, .serve 1, .close 0, .resume 1, .serve 1, .resume 1, .serve 1, .resume 1, .close 1]

theorem oneAfterTheOther_right :
    (runAll step oneAfterTheOther (fresh 5 ⟨some [], none⟩ [none, none] [0, 1])).Right ∧
      oneAfterTheOther.length ≤ 10 * 2 :=
  openDb_of_run (by decide) List.prefix_rfl

/-- Both tabs find the version, and one of them upgrades it before the other opens it again. -/
def bothAtOnce : List Op :=
  [.start 0, .serve 0, .resume 0, .serve 0, .resume 0, .start 1, .serve 1, .resume 1, .serve 1,
    .resume 1, .serve 0, .resume 0, .serve 0, .resume 0, .serve 1, .resume 1]

theorem upgrade_between_probe_and_reopen :
    ¬(runAll step bothAtOnce (fresh 5 ⟨some [], none⟩ [none, none] [0, 1])).Right := by
  intro right
  have other := right.complete ⟨1, .failed⟩ (by decide)
  exact other.1 rfl

end Origin

end Tomb.Reliquary.Browser.OpenDb
