import Mathlib.Data.List.Nodup
import Tomb.Grimoire.Radio.Planner

/-! The plan stays short, without duplicates and of one play mode, as long as no refill adds items
to a plan that another refill has added to or that was cleared behind its picks. -/
namespace Tomb.Grimoire.Radio.Planning
open Tomb.Lib

def songIds (items : List PlannedItem) : List String := items.map (·.track.songId)

/-- A refill has room for what it has picked, and none of it twice. As long as no refill has added
to the plan since its snapshot, the plan has nothing that was not there then. -/
structure Refill.Sound (refill : Refill) (s : Planner) : Prop where
  room : refill.currentCount + refill.newItems.length ≤ maxUpcomingItems
  seen : refill.appendsSeen ≤ s.appends
  excluded : ∃ planned : List String, refill.excluded = planned ++ songIds refill.newItems ∧
    refill.excluded.Nodup ∧ planned.length = refill.currentCount ∧
    (s.appends = refill.appendsSeen →
      songIds s.plan ⊆ planned ∧ s.plan.length ≤ planned.length)

def RefillStage.Sound (s : Planner) : RefillStage → Prop
  | .anchor refill | .append refill => refill.Sound s
  | .pick refill _ _ =>
    refill.Sound s ∧ refill.currentCount + refill.newItems.length < maxUpcomingItems
  | _ => True

/-- The step leaves the plan or takes something away from it, or it counts as an addition. -/
def Later (s s' : Planner) : Prop :=
  s'.appends = s.appends ∧ s'.plan.Sublist s.plan ∨ s'.appends = s.appends + 1

section Later

variable {s s' : Planner}

theorem Refill.Sound.later {refill : Refill} (later : Later s s') (sound : refill.Sound s) :
    refill.Sound s' := by
  obtain ⟨room, seen, planned, spelled, distinct, counted, kept⟩ := sound
  obtain ⟨same, less⟩ | more := later
  · refine ⟨room, by omega, planned, spelled, distinct, counted, fun current => ?_⟩
    obtain ⟨inside, short⟩ := kept (by omega)
    exact ⟨fun id member => inside ((less.map _).subset member), less.length_le.trans short⟩
  · exact ⟨room, by omega, planned, spelled, distinct, counted, fun current => by omega⟩

theorem RefillStage.Sound.later {stage : RefillStage} (later : Later s s') (sound : stage.Sound s) :
    stage.Sound s' := by
  cases stage with
  | anchor refill => exact Refill.Sound.later later sound
  | append refill => exact Refill.Sound.later later sound
  | pick refill tries since => exact ⟨sound.1.later later, sound.2⟩
  | _ => trivial

theorem Later.of_same (plan : s'.plan = s.plan) (appends : s'.appends = s.appends) : Later s s' :=
  .inl ⟨appends, plan ▸ List.Sublist.refl _⟩

variable {refill : Refill}

theorem Refill.Sound.finish (sound : refill.Sound s) : refill.finish.Sound s := by
  unfold Refill.finish
  split
  · trivial
  · exact sound

theorem Refill.Sound.goOn {clears : Nat} (sound : refill.Sound s) :
    (refill.goOn clears).Sound s := by
  unfold Refill.goOn
  dsimp only
  split
  · exact sound.finish
  · rename_i room
    split
    · exact sound.finish
    · exact ⟨sound, by omega⟩

theorem snapshot_sound {nowMs : Int} (distinct : (songIds s.plan).Nodup)
    (room : s.plan.length ≤ maxUpcomingItems) : (s.snapshot nowMs).Sound s := by
  refine ⟨room, le_rfl, songIds s.plan, (List.append_nil _).symm, distinct, List.length_map _,
    fun _ => ⟨List.Subset.refl _, ?_⟩⟩
  rw [songIds, List.length_map]

theorem Refill.Sound.addTrack {track : RadioTrack} {since : Nat}
    (sound : refill.Sound s) (room : refill.currentCount + refill.newItems.length < maxUpcomingItems)
    (other : track.songId ∉ refill.excluded) : (s.addTrack refill track since).Sound s := by
  obtain ⟨-, seen, planned, spelled, distinct, counted, kept⟩ := sound
  refine ⟨?_, seen, planned, ?_, ?_, counted, kept⟩
  · change refill.currentCount + (refill.newItems ++ [_]).length ≤ maxUpcomingItems
    rw [List.length_append, List.length_singleton]
    omega
  · unfold Planner.addTrack songIds
    rw [List.map_append, List.map_singleton, ← List.append_assoc]
    exact congrArg (· ++ [track.songId]) spelled
  · exact List.nodup_append.mpr ⟨distinct, List.nodup_singleton _, fun id member last single same =>
      other (by rwa [← List.mem_singleton.mp single, ← same])⟩

end Later

/-- The plan is short, without duplicates, and was picked as a whole since it was cleared last. -/
structure Kept (s : Planner) : Prop where
  short : s.plan.length ≤ maxUpcomingItems
  distinct : (songIds s.plan).Nodup
  fresh : ∀ item ∈ s.plan, item.pickedUnder = s.clears

structure Inv (s : Planner) : Prop extends Kept s where
  tasks : ∀ task ∈ s.refills, task.stage.Sound s

/-- A refill about to add its items: nothing was added since its snapshot, and the plan was not
cleared since its picks. -/
def RefillStage.Current (s : Planner) : RefillStage → Prop
  | .append refill => s.appends = refill.appendsSeen ∧
    ∀ item ∈ refill.newItems, item.pickedUnder = s.clears
  | _ => True

instance (s : Planner) : (stage : RefillStage) → Decidable (stage.Current s)
  | .append refill => inferInstanceAs (Decidable (s.appends = refill.appendsSeen ∧
    ∀ item ∈ refill.newItems, item.pickedUnder = s.clears))
  | .stationAcceptsRequests | .currentPlayMode | .syncPlanMode _ | .snapshot | .anchor _
  | .pick _ _ _ | .done => .isTrue trivial

def PlannerOp.Current : PlannerOp → Planner → Prop
  | .refill task _ _, s => ∀ entry ∈ s.refills[task]?, entry.stage.Current s
  | _, _ => True

instance (s : Planner) : (op : PlannerOp) → Decidable (op.Current s)
  | .refill task _ _ =>
    inferInstanceAs (Decidable (∀ entry ∈ s.refills[task]?, entry.stage.Current s))
  | .editStation _ | .setTrack _ _ _ | .requestSkip _ | .runLoop _ => .isTrue trivial

section Steps

variable {s s' : Planner}

theorem Inv.of_later (inv : Inv s) (kept : Kept s') (later : Later s s')
    (refills : s'.refills = s.refills) : Inv s' :=
  ⟨kept, fun task member => (inv.tasks task (refills ▸ member)).later later⟩

theorem Inv.of_same (inv : Inv s) (plan : s'.plan = s.plan) (clears : s'.clears = s.clears)
    (appends : s'.appends = s.appends) (refills : s'.refills = s.refills) : Inv s' := by
  refine inv.of_later ⟨?_, ?_, ?_⟩ (Later.of_same plan appends) refills
  · rw [plan]
    exact inv.short
  · rw [plan]
    exact inv.distinct
  · rw [plan, clears]
    exact inv.fresh

theorem Inv.clear (inv : Inv s) : Inv s.clear := by
  refine inv.of_later ⟨Nat.zero_le _, List.nodup_nil, fun _ none => (nomatch none)⟩ ?_ rfl
  exact .inl ⟨rfl, List.nil_sublist _⟩

theorem Inv.syncPlanMode (inv : Inv s) (mode : String) : Inv (s.syncPlanMode mode) := by
  unfold Planner.syncPlanMode
  split
  · exact inv
  · exact inv.clear.of_same rfl rfl rfl rfl

theorem refills_syncPlanMode (s : Planner) (mode : String) :
    (s.syncPlanMode mode).refills = s.refills := by
  unfold Planner.syncPlanMode
  split
  · rfl
  · rfl

theorem Inv.pop (inv : Inv s) {item : PlannedItem} {rest : List PlannedItem}
    (plan : s.plan = item :: rest) : Inv { s with plan := rest } := by
  have less : rest.Sublist s.plan := plan ▸ List.sublist_cons_self item rest
  refine inv.of_later ⟨less.length_le.trans inv.short, (less.map _).nodup inv.distinct, ?_⟩
    (.inl ⟨rfl, less⟩) rfl
  exact fun item member => inv.fresh item (less.subset member)

theorem Inv.play (inv : Inv s) (track : RadioTrack) : Inv (s.play track) := by
  have later : Later s (s.play track) := Later.of_same rfl rfl
  refine ⟨⟨inv.short, inv.distinct, inv.fresh⟩, fun task member => ?_⟩
  obtain old | new := List.mem_append.mp member
  · exact (inv.tasks task old).later later
  · rw [List.mem_singleton.mp new]
    trivial

theorem Inv.setStage (inv : Inv s) {task : Nat} {entry : RefillTask} {stage : RefillStage}
    (there : s.refills[task]? = some entry) (sound : stage.Sound s) :
    Inv (s.setStage task stage) := by
  refine ⟨⟨inv.short, inv.distinct, inv.fresh⟩, fun other member => ?_⟩
  apply RefillStage.Sound.later (Later.of_same rfl rfl : Later s (s.setStage task stage))
  obtain old | rfl := mem_modify there member
  · exact inv.tasks other old
  · exact sound

theorem Inv.append (inv : Inv s) {refill : Refill} (sound : refill.Sound s)
    (current : (RefillStage.append refill).Current s) :
    Inv { s with plan := s.plan ++ refill.newItems, appends := s.appends + 1 } := by
  obtain ⟨room, -, planned, spelled, distinct, counted, kept⟩ := sound
  obtain ⟨inside, short⟩ := kept current.1
  rw [spelled] at distinct
  obtain ⟨-, added, apart⟩ := List.nodup_append.mp distinct
  refine inv.of_later ⟨?_, ?_, ?_⟩ (.inr rfl) rfl
  · rw [List.length_append]
    omega
  · unfold songIds
    rw [List.map_append]
    exact List.nodup_append.mpr ⟨inv.distinct, added, fun id old other new same =>
      apart id (inside old) other new same⟩
  · intro item member
    obtain old | new := List.mem_append.mp member
    · exact inv.fresh item old
    · exact current.2 item new

theorem Inv.refill (inv : Inv s) (task : Nat) (pick : Option RadioTrack) (nowMs : Int)
    (current : (PlannerOp.refill task pick nowMs).Current s) : Inv (s.refill task pick nowMs) := by
  unfold Planner.refill
  cases there : s.refills[task]? with
  | none => exact inv
  | some entry =>
    have sound := inv.tasks entry (List.mem_of_getElem? there)
    dsimp only
    cases stage : entry.stage with
    | stationAcceptsRequests =>
      apply inv.setStage there
      split
      · trivial
      · trivial
    | currentPlayMode => exact inv.setStage there trivial
    | syncPlanMode mode =>
      have same : (s.syncPlanMode mode).refills[task]? = some entry := by
        rwa [refills_syncPlanMode]
      exact (inv.syncPlanMode mode).setStage same trivial
    | snapshot =>
      apply inv.setStage there
      split
      · trivial
      · exact snapshot_sound inv.distinct inv.short
    | anchor refill =>
      rw [stage] at sound
      apply inv.setStage there
      exact Refill.Sound.goOn ⟨sound.room, sound.seen, sound.excluded⟩
    | pick refill tries since =>
      rw [stage] at sound
      obtain ⟨sound, room⟩ := sound
      cases pick with
      | none => exact inv.setStage there trivial
      | some track =>
        dsimp only
        split
        · rename_i other
          have next : Inv { s with planItemSeq := s.planItemSeq + 1 } := inv.of_same rfl rfl rfl rfl
          have goes : ((s.addTrack refill track since).goOn s.clears).Sound s :=
            (sound.addTrack room other).goOn
          have later : Later s { s with planItemSeq := s.planItemSeq + 1 } := Later.of_same rfl rfl
          exact next.setStage there (goes.later later)
        · split
          · exact inv.setStage there sound.finish
          · exact inv.setStage there ⟨sound, room⟩
    | append refill =>
      rw [stage] at sound
      have now : entry.stage.Current s := current entry there
      rw [stage] at now
      exact (inv.append sound now).setStage there trivial
    | done => exact inv

theorem Inv.runLoop (inv : Inv s) (pick : Option RadioTrack) : Inv (s.runLoop pick) := by
  unfold Planner.runLoop
  split
  · exact inv.of_same rfl rfl rfl rfl
  · exact inv.clear.of_same rfl rfl rfl rfl
  · exact inv.of_same rfl rfl rfl rfl
  · rename_i mode _
    exact (inv.syncPlanMode mode).of_same rfl rfl rfl rfl
  · split
    · exact inv.of_same rfl rfl rfl rfl
    · rename_i item rest plan
      exact (inv.pop plan).play item.track
  · split
    · rename_i track
      exact inv.play track
    · exact inv.of_same rfl rfl rfl rfl
  · exact inv.of_same rfl rfl rfl rfl

theorem Inv.step (op : PlannerOp) (s : Planner) (current : op.Current s) (inv : Inv s) :
    Inv (Planner.step op s) := by
  cases op with
  | editStation station => exact inv.of_same rfl rfl rfl rfl
  | setTrack startedAtMs durationMs songId => exact inv.of_same rfl rfl rfl rfl
  | requestSkip nowMs =>
    unfold Planner.step Planner.requestSkip
    dsimp only
    split
    · exact inv
    · split
      · exact inv
      · split
        · exact inv
        · exact inv.of_same rfl rfl rfl rfl
  | runLoop pick => exact inv.runLoop pick
  | refill task pick nowMs => exact inv.refill task pick nowMs current

theorem Inv.new (stationId : String) (station : Option StationPlay) :
    Inv (Planner.new stationId station) :=
  ⟨⟨Nat.zero_le _, List.nodup_nil, fun _ none => (nomatch none)⟩, fun _ none => (nomatch none)⟩

end Steps

/-- In every run of the station the plan is kept, as long as each refill that adds to it finds
nothing added since its snapshot and nothing cleared since its picks. -/
theorem plan_kept (stationId : String) (station : Option StationPlay) (ops : List PlannerOp)
    (current : Meets Planner.step PlannerOp.Current ops (Planner.new stationId station)) :
    Kept (runAll Planner.step ops (Planner.new stationId station)) :=
  (Meets.keeps Inv.step current (Inv.new stationId station)).toKept

def playNext (song : String) : List PlannerOp :=
  [.runLoop none, .runLoop none, .runLoop none, .runLoop none, .runLoop (some ⟨song, none⟩),
    .runLoop none]

def refillWith (task : Nat) (durationMs : Option Int) (songs : List String) : List PlannerOp :=
  List.replicate 5 (PlannerOp.refill task none 0) ++
    songs.map fun song => PlannerOp.refill task (some ⟨song, durationMs⟩) 0

def append (task : Nat) : PlannerOp := .refill task none 0

def shuffled : Planner := .new "s1" (some ⟨"shuffle", 0⟩)

theorem plan_kept_by_one_refill_at_a_time :
    let ops := playNext "a" ++ refillWith 0 (some 400000) ["b", "c", "d"] ++ append 0 ::
      playNext "e" ++ refillWith 1 (some 400000) ["f"] ++ [append 1]
    songIds (runAll Planner.step ops shuffled).plan = ["c", "d", "f"] ∧
      Kept (runAll Planner.step ops shuffled) :=
  ⟨by decide +kernel, plan_kept "s1" (some ⟨"shuffle", 0⟩) _ (by decide +kernel)⟩

/-- Two refills at a time plan the same songs, and twice as many as there is room for; and a refill
brings back, behind a skip, what it had picked before. -/
theorem refills_overlap :
    let songs := ["b", "c", "d", "e", "f", "g", "h", "i"]
    let together := playNext "a" ++ playNext "a" ++ refillWith 0 none songs ++
      refillWith 1 none songs ++ [append 0, append 1]
    let skipped := playNext "a" ++ refillWith 0 (some 500000) ["b", "c"] ++
      [.setTrack 1 300000 "a", .requestSkip 2, .runLoop none, .runLoop none, append 0]
    songIds (runAll Planner.step together shuffled).plan = songs ++ songs ∧
      maxUpcomingItems < (songs ++ songs).length ∧
      (runAll Planner.step skipped shuffled).clears = 2 ∧
      (runAll Planner.step skipped shuffled).plan.map (·.pickedUnder) = [1, 1] := by
  decide +kernel

end Tomb.Grimoire.Radio.Planning
