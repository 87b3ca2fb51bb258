import Tomb.Lib.Runs
import Tomb.Grimoire.ExternalStorage.Availability

/-! What the snapshots say of a source over time, and the state and the scans that follow from it. -/
namespace Tomb.Grimoire.ExternalStorage
open Tomb.Lib

structure Observation where
  time : Int
  present : Bool

/-- Since when the source has been absent without a break; the newest observation is the first. -/
@[grind =] def absentSince : List Observation → Option Int
  | [] => none
  | seen :: before => if seen.present then none else some ((absentSince before).getD seen.time)

@[grind =] def statusOf : List Observation → Status
  | [] => .unknown
  | seen :: before =>
    if seen.present then .online
    else if seen.time - (absentSince before).getD seen.time ≥ offlineConfirmationSeconds then .offline
    else statusOf before

def Ordered (seen : List Observation) : Prop :=
  seen.Pairwise fun newer older => older.time ≤ newer.time

/-- Two absent observations, five seconds apart at least, with absent ones between them alone. -/
def ConfirmedAbsent (seen : List Observation) : Prop :=
  ∃ streak before newest oldest, seen = streak ++ before ∧
    (∀ observation ∈ streak, observation.present = false) ∧ seen.head? = some newest ∧
    oldest ∈ streak ∧ newest.time - oldest.time ≥ offlineConfirmationSeconds

inductive Agrees : List Observation → Option SourceState → Prop where
  | unseen : Agrees [] none
  | seen {last : Observation} {before : List Observation} {state : SourceState}
      (status : state.status = statusOf (last :: before))
      (missingSince : state.missingSince = absentSince (last :: before))
      (checkedAt : state.checkedAt = last.time) : Agrees (last :: before) (some state)

section Histories

variable {seen : List Observation}

theorem absentSince_isSome_iff {last : Observation} {before : List Observation} :
    (absentSince (last :: before)).isSome = true ↔ last.present = false := by
  unfold absentSince
  split <;> simp_all

theorem absentSince_spec {since : Int} (absent : absentSince seen = some since) :
    ∃ streak oldest before, seen = streak ++ before ∧
      (∀ observation ∈ streak, observation.present = false) ∧ oldest ∈ streak ∧
        oldest.time = since := by
  induction seen generalizing since with
  | nil => cases absent
  | cons last before ih =>
    unfold absentSince at absent
    split at absent
    · cases absent
    · rename_i gone
      have gone := Bool.eq_false_iff.mpr gone
      cases earlier : absentSince before with
      | none =>
        rw [earlier] at absent
        refine ⟨[last], last, before, rfl, ?_, List.mem_cons_self, Option.some.inj absent⟩
        intro observation member
        rw [List.mem_singleton.mp member]
        exact gone
      | some start =>
        rw [earlier] at absent
        obtain ⟨streak, oldest, rest, parts, all, member, same⟩ := ih earlier
        refine ⟨last :: streak, oldest, rest, by rw [parts, List.cons_append], ?_,
          List.mem_cons_of_mem _ member, same.trans (Option.some.inj absent)⟩
        intro observation listed
        rcases List.mem_cons.mp listed with same | later
        · rw [same]
          exact gone
        · exact all observation later

theorem absentSince_le {streak before : List Observation} {oldest : Observation}
    (ordered : Ordered (streak ++ before))
    (all : ∀ observation ∈ streak, observation.present = false) (member : oldest ∈ streak) :
    ∃ since, absentSince (streak ++ before) = some since ∧ since ≤ oldest.time := by
  induction streak with
  | nil => cases member
  | cons last streak ih =>
    obtain ⟨newer, ordered⟩ := List.pairwise_cons.mp ordered
    have gone : ¬last.present = true := Bool.eq_false_iff.mp (all last List.mem_cons_self)
    rw [List.cons_append, absentSince, if_neg gone]
    refine ⟨_, rfl, ?_⟩
    rcases List.mem_cons.mp member with same | later
    · rw [same]
      cases earlier : absentSince (streak ++ before) with
      | none => exact Int.le_refl last.time
      | some start =>
        obtain ⟨front, first, rest, parts, _, listed, time⟩ := absentSince_spec earlier
        rw [Option.getD_some, ← time]
        refine newer first ?_
        change first ∈ streak ++ before
        rw [parts]
        exact List.mem_append_left _ listed
    · obtain ⟨since, earlier, early⟩ :=
        ih ordered (fun observation listed => all observation (List.mem_cons_of_mem _ listed)) later
      rw [earlier]
      exact early

theorem statusOf_offline_iff (ordered : Ordered seen) :
    statusOf seen = .offline ↔ ConfirmedAbsent seen := by
  induction seen with
  | nil =>
    constructor
    · intro offline
      cases offline
    · rintro ⟨_, _, _, _, _, _, head, _⟩
      cases head
  | cons last before ih =>
    obtain ⟨newer, earlier⟩ := List.pairwise_cons.mp ordered
    constructor
    · intro offline
      unfold statusOf at offline
      split at offline
      · cases offline
      · rename_i gone
        have gone := Bool.eq_false_iff.mpr gone
        split at offline
        · rename_i long
          have began : absentSince (last :: before) = some ((absentSince before).getD last.time) := by
            rw [absentSince, if_neg (Bool.eq_false_iff.mp gone)]
          obtain ⟨streak, oldest, rest, parts, all, member, time⟩ := absentSince_spec began
          exact ⟨streak, rest, last, oldest, parts, all, rfl, member, time ▸ long⟩
        · obtain ⟨streak, rest, newest, oldest, parts, all, head, member, long⟩ := (ih earlier).mp offline
          have listed : newest ∈ before := List.mem_of_mem_head? head
          have later := newer newest listed
          refine ⟨last :: streak, rest, last, oldest, by rw [parts, List.cons_append], ?_, rfl,
            List.mem_cons_of_mem _ member, by omega⟩
          intro observation listed
          rcases List.mem_cons.mp listed with same | rest
          · rw [same]
            exact gone
          · exact all observation rest
    · rintro ⟨streak, rest, newest, oldest, parts, all, head, member, long⟩
      cases Option.some.inj head
      cases streak with
      | nil => cases member
      | cons first streak =>
        obtain ⟨rfl, split⟩ := List.cons.inj parts
        have whole : before = streak ++ rest := split
        rw [whole] at earlier
        have gone : ¬last.present = true := Bool.eq_false_iff.mp (all last List.mem_cons_self)
        rcases List.mem_cons.mp member with same | inside
        · rw [same, Int.sub_self] at long
          cases long
        · obtain ⟨since, began, early⟩ := absentSince_le earlier
            (fun observation listed => all observation (List.mem_cons_of_mem _ listed)) inside
          rw [statusOf, if_neg gone, whole, began, Option.getD_some, if_pos]
          omega

end Histories

theorem saturatingSub_ge_iff (a b : Int) :
    saturatingSub a b ≥ offlineConfirmationSeconds ↔ a - b ≥ offlineConfirmationSeconds := by
  unfold saturatingSub offlineConfirmationSeconds i64Min i64Max
  omega

theorem nextState_agrees {seen : List Observation} {previous : Option SourceState}
    (agrees : Agrees seen previous) (id : String) (present : Bool) (now : Int) :
    Agrees (⟨now, present⟩ :: seen) (some (nextState previous id present now)) := by
  have status_before : (previous.map (·.status)).getD .unknown = statusOf seen := by
    cases agrees with
    | unseen => rfl
    | seen status _ _ => exact status
  have missing_before : previous.bind (·.missingSince) = absentSince seen := by
    cases agrees with
    | unseen => rfl
    | seen _ missingSince _ => exact missingSince
  constructor
  · unfold nextState statusOf
    cases present with
    | true => rfl
    | false =>
      simp only [Bool.false_eq_true, if_false, Option.any_some, status_before, missing_before,
        ge_iff_le, decide_eq_true_eq]
      exact if_congr (saturatingSub_ge_iff _ _) rfl rfl
  · unfold nextState absentSince
    cases present with
    | true => rfl
    | false => simp only [Bool.false_eq_true, if_false, missing_before]
  · rfl

/-! Runs, with what they were told. -/

def ScanJob.walksWhole (root : Path) (domain : SourceDomain) (job : ScanJob) : Bool :=
  job.queued false root domain && job.parameters.recursive && job.parameters.maxDepth = none &&
    job.parameters.fileExtensions = none && !job.parameters.skipTrackedSubdirs

/-- The storage, what the applied snapshots said of each source, and the scans that the last of them
has made due. -/
structure Watched where
  storage : Storage
  seen : String → List Observation
  due : List (Path × SourceDomain)

namespace Watched

def isDue (w : Watched) (source : LibrarySource) (root : Path) : Bool :=
  (w.seen source.id).head?.all (!·.present) || root ≠ source.lastKnownPath

def watchSource (targets : List SyncTarget) (now : Int) (startup : Bool) (w : Watched)
    (observation : LibrarySource × Option Path) : Option Watched := do
  let storage ← applySource targets now startup w.storage observation
  if counts targets now w.storage observation then
    let (source, root) := observation
    some
      { storage
        seen := Function.update w.seen source.id (⟨now, root.isSome⟩ :: w.seen source.id)
        due := (root.filter (w.isDue source)).elim w.due fun root => (root, source.domain) :: w.due }
  else some { w with storage }

def watchSnapshot (w : Watched) (sources : List LibrarySource) (roots : List (Option Path)) (now : Int)
    (startup : Bool) : Option Watched :=
  if sources.length ≠ roots.length then none
  else
    (sources.zip roots).foldlM (watchSource w.storage.db.listTargets now startup) { w with due := [] }

end Watched

/-- A snapshot, or whatever else changes the database but the states; those of removed sources go. -/
inductive Event where
  | snapshot (sources : List LibrarySource) (roots : List (Option Path)) (now : Int) (startup : Bool)
  | elsewhere (next : Storage) (removed : List String)

namespace Event

def run (event : Event) (w : Watched) : Watched :=
  match event with
  | snapshot sources roots now startup =>
    (w.watchSnapshot sources roots now startup).getD { w with due := [] }
  | elsewhere next removed =>
    let states := w.storage.db.librarySourceStatez.deleteWhere (·.sourceId ∈ removed)
    { storage := ⟨{ next.db with librarySourceStatez := states }, next.jobz⟩
      seen := fun id => if id ∈ removed then [] else w.seen id
      due := [] }

def apply (event : Event) (storage : Storage) : Storage :=
  match event with
  | snapshot sources roots now startup =>
    (applySnapshot storage sources roots now startup).getD storage
  | elsewhere next removed =>
    let states := storage.db.librarySourceStatez.deleteWhere (·.sourceId ∈ removed)
    ⟨{ next.db with librarySourceStatez := states }, next.jobz⟩

end Event

section Watching

variable {targets : List SyncTarget} {now : Int} {startup : Bool}

end Watching

structure Lawful (w : Watched) : Prop where
  agrees : ∀ id, Agrees (w.seen id) (w.storage.db.librarySourceStatez.get id)
  ordered : ∀ id, Ordered (w.seen id)

def Scheduled (w : Watched) : Prop :=
  ∀ scan ∈ w.due, ∃ job ∈ w.storage.jobz, job.walksWhole scan.1 scan.2 = true

instance (w : Watched) : Decidable (Scheduled w) :=
  inferInstanceAs (Decidable (∀ scan ∈ w.due, ∃ job ∈ w.storage.jobz, job.walksWhole scan.1 scan.2 = true))

section Laws

variable {targets : List SyncTarget} {now : Int} {startup : Bool} {w next : Watched}
variable {source : LibrarySource} {root : Option Path}

theorem Lawful.newest (lawful : Lawful w)
    (taken : counts targets now w.storage (source, root) = true) :
    ∀ seen ∈ w.seen source.id, seen.time ≤ now := by
  have agrees := lawful.agrees source.id
  have ordered := lawful.ordered source.id
  cases states : w.storage.db.librarySourceStatez.get source.id with
  | none =>
    rw [states] at agrees
    cases seen : w.seen source.id with
    | nil => exact fun _ member => absurd member List.not_mem_nil
    | cons last before =>
      rw [seen] at agrees
      cases agrees
  | some state =>
    rw [states] at agrees
    have recent := counts_recent taken states
    cases seen : w.seen source.id with
    | nil =>
      rw [seen] at agrees
      cases agrees
    | cons last before =>
      rw [seen] at agrees ordered
      cases agrees with
      | seen _ _ checkedAt =>
        have recent : last.time ≤ now := checkedAt ▸ recent
        intro older member
        rcases List.mem_cons.mp member with same | earlier
        · rw [same]
          exact recent
        · exact Int.le_trans ((List.pairwise_cons.mp ordered).1 older earlier) recent

/-- An observation is passed by, or it is the newest of its source and its state follows. -/
inductive Watches (targets : List SyncTarget) (now : Int) (startup : Bool) (w : Watched)
    (source : LibrarySource) (root : Option Path) : Watched → Prop where
  | passed (ignored : counts targets now w.storage (source, root) = false) :
      Watches targets now startup w source root w
  | counted (taken : counts targets now w.storage (source, root) = true) {storage : Storage}
      (states : storage.db.librarySourceStatez =
        w.storage.db.librarySourceStatez.upsert (observed w.storage now source root))
      (jobs : storage.jobz = root.elim w.storage.jobz (scanIfDue w.storage now startup source)) :
      Watches targets now startup w source root
        { storage
          seen := Function.update w.seen source.id (⟨now, root.isSome⟩ :: w.seen source.id)
          due := (root.filter (w.isDue source)).elim w.due fun root => (root, source.domain) :: w.due }

theorem Watches.lawful (watches : Watches targets now startup w source root next) (lawful : Lawful w) :
    Lawful next := by
  cases watches with
  | passed _ => exact lawful
  | counted taken states jobs =>
    rename_i storage
    have newest := lawful.newest taken
    have states_of (id : String) : storage.db.librarySourceStatez.get id =
        if id = source.id then some (observed w.storage now source root)
        else w.storage.db.librarySourceStatez.get id := by
      rw [states, Table.get_upsert]
      rfl
    refine ⟨fun id => ?_, fun id => ?_⟩
    · rw [states_of]
      by_cases same : id = source.id
      · rw [if_pos same, same]
        dsimp only
        rw [Function.update_self]
        exact nextState_agrees (lawful.agrees source.id) source.id root.isSome now
      · rw [if_neg same]
        dsimp only
        rw [Function.update_of_ne same]
        exact lawful.agrees id
    · by_cases same : id = source.id
      · rw [same]
        dsimp only
        rw [Function.update_self]
        exact List.pairwise_cons.mpr ⟨newest, lawful.ordered source.id⟩
      · dsimp only
        rw [Function.update_of_ne same]
        exact lawful.ordered id

variable {path : Path}

theorem scanIfDue_of_isDue (lawful : Lawful w) (due : w.isDue source path = true) :
    scanIfDue w.storage now startup source path =
      enqueueSourceScan w.storage.jobz source path now false := by
  have before : ((w.storage.db.librarySourceStatez.get source.id).map (·.status)).getD .unknown ≠ .online ∨
      (w.storage.db.librarySourceStatez.get source.id).any (·.missingSince.isSome) = true ∨
      path ≠ source.lastKnownPath := by
    have agrees := lawful.agrees source.id
    rcases Bool.or_eq_true_iff.mp due with absent | elsewhere
    · generalize w.storage.db.librarySourceStatez.get source.id = state at agrees ⊢
      generalize w.seen source.id = seen at agrees absent
      cases agrees with
      | unseen => exact .inl Status.noConfusion
      | seen _ missingSince _ =>
        rename_i last earlier state
        refine .inr (.inl ?_)
        rw [Option.any_some, missingSince, absentSince_isSome_iff]
        simpa using absent
    · exact .inr (.inr (of_decide_eq_true elsewhere))
  unfold scanIfDue
  dsimp only
  rcases before with unknown | missing | elsewhere
  · simp [unknown]
  · simp [missing]
  · simp [elsewhere]

theorem enqueueSourceScan_walks (now : Int) {jobs : List ScanJob}
    (clear : (∃ job ∈ jobs, job.queued false path source.domain = true) →
      ∃ job ∈ jobs, job.walksWhole path source.domain = true) :
    ∃ job ∈ enqueueSourceScan jobs source path now false,
      job.walksWhole path source.domain = true := by
  unfold enqueueSourceScan
  split
  · rename_i queued
    exact clear (List.any_eq_true.mp queued)
  · refine ⟨_, List.mem_append_right _ List.mem_cons_self, ?_⟩
    simp [ScanJob.walksWhole, ScanJob.queued]

/-- Every scan of the root that could stand for the one that is due walks all of it, if there is one. -/
def Clear (targets : List SyncTarget) (now : Int) (w : Watched)
    (observation : LibrarySource × Option Path) : Prop :=
  let (source, root) := observation
  ∀ path, root = some path → counts targets now w.storage observation = true →
    w.isDue source path = true →
    (∃ job ∈ w.storage.jobz, job.queued false path source.domain = true) →
      ∃ job ∈ w.storage.jobz, job.walksWhole path source.domain = true

theorem mem_enqueueSourceScan {jobs : List ScanJob} {startupOnly : Bool} {job : ScanJob}
    (known : job ∈ jobs) : job ∈ enqueueSourceScan jobs source path now startupOnly := by
  unfold enqueueSourceScan
  split
  · exact known
  · exact List.mem_append_left _ known

variable {storage : Storage}

theorem mem_scanIfDue {job : ScanJob}
    (known : job ∈ storage.jobz) : job ∈ scanIfDue storage now startup source path := by
  unfold scanIfDue
  dsimp only
  split
  · exact mem_enqueueSourceScan known
  · exact known

theorem Watches.scheduled (watches : Watches targets now startup w source root next)
    (lawful : Lawful w) (clear : Clear targets now w (source, root)) (scheduled : Scheduled w) :
    Scheduled next := by
  cases watches with
  | passed _ => exact scheduled
  | counted taken states jobs =>
    rename_i storage
    have kept (job : ScanJob) (known : job ∈ w.storage.jobz) : job ∈ storage.jobz := by
      rw [jobs]
      cases root with
      | none => exact known
      | some path => exact mem_scanIfDue known
    have earlier : ∀ scan ∈ w.due, ∃ job ∈ storage.jobz, job.walksWhole scan.1 scan.2 = true := by
      intro scan listed
      obtain ⟨job, known, walks⟩ := scheduled scan listed
      exact ⟨job, kept job known, walks⟩
    intro scan listed
    cases root with
    | none => exact earlier scan listed
    | some path =>
      by_cases due : w.isDue source path = true
      · simp only [Option.filter, due, if_true, Option.elim_some] at listed
        rcases List.mem_cons.mp listed with same | before
        · have walks := enqueueSourceScan_walks now (clear path rfl taken due)
          rw [← scanIfDue_of_isDue lawful due] at walks
          rw [same, jobs]
          exact walks
        · exact earlier scan before
      · simp only [Option.filter, due] at listed
        exact earlier scan listed

end Laws

def Clears (targets : List SyncTarget) (now : Int) (startup : Bool) :
    List (LibrarySource × Option Path) → Watched → Prop
  | [], _ => True
  | observation :: rest, w => Clear targets now w observation ∧
      ∀ next, w.watchSource targets now startup observation = some next →
        Clears targets now startup rest next

/-- Whenever a scan of a root comes due, the pending scans that the query would take for it hold one that
walks all of the root. -/
def Event.Clear (event : Event) (w : Watched) : Prop :=
  match event with
  | snapshot sources roots now startup =>
    Clears w.storage.db.listTargets now startup (sources.zip roots) { w with due := [] }
  | elsewhere .. => True

def Watched.empty : Watched := ⟨⟨∅, []⟩, fun _ => [], []⟩

structure SourceLaw (seen : List Observation) (state : Option SourceState) : Prop where
  ordered : Ordered seen
  unseen : state = none ↔ seen = []
  offline : ∀ known, state = some known → (known.status = .offline ↔ ConfirmedAbsent seen)
  online : ∀ known last, state = some known → seen.head? = some last → last.present = true →
    known.status = .online
  missing : ∀ known last, state = some known → seen.head? = some last →
    (known.missingSince.isSome = true ↔ last.present = false)
  checked : ∀ known last, state = some known → seen.head? = some last → known.checkedAt = last.time

section Runs

theorem Agrees.law {seen : List Observation} {state : Option SourceState} (agrees : Agrees seen state)
    (ordered : Ordered seen) : SourceLaw seen state := by
  cases agrees with
  | unseen =>
    refine ⟨ordered, by simp, ?_, ?_, ?_, ?_⟩ <;> intro known <;> intros <;> contradiction
  | seen status missingSince checkedAt =>
    rename_i last before state
    refine ⟨ordered, by simp, ?_, ?_, ?_, ?_⟩
    · intro known same
      cases Option.some.inj same
      rw [status]
      exact statusOf_offline_iff ordered
    · intro known newest same head present
      cases Option.some.inj same
      cases Option.some.inj head
      rw [status, statusOf, if_pos present]
    · intro known newest same head
      cases Option.some.inj same
      cases Option.some.inj head
      rw [missingSince]
      exact absentSince_isSome_iff
    · intro known newest same head
      cases Option.some.inj same
      cases Option.some.inj head
      exact checkedAt

theorem Lawful.empty : Lawful Watched.empty where
  agrees := fun _ => .unseen
  ordered := fun _ => List.Pairwise.nil

end Runs

end Tomb.Grimoire.ExternalStorage
