import Mathlib.Order.Bounds.Basic
import Tomb.Grimoire.Radio.Mp4Duration

/-! The duration of a fragment is the one of its longest track, unless a track with a run that cannot
be timed looks longer. -/
namespace Tomb.Grimoire.Radio.Mp4
open Tomb.Lib

def roundMs (ticks timescale : Nat) : Nat := (2000 * ticks + timescale) / (2 * timescale)

def exactMs (ticks timescale : Nat) : Nat := min (roundMs ticks timescale) (2 ^ 32 - 1)

/-- The durations of a run's samples: their own fields, which are behind the optional ones of the run
and stand as far apart as the flags say, or else the default. -/
def sampleDurations (body : Bytes) (defaultDuration : Option Nat) : Option (List Nat) := do
  let flags ← flagsOf body
  let sampleCount ← u32At body 4
  let first := 8 + (if flags.testBit 0 then 4 else 0) + if flags.testBit 2 then 4 else 0
  let fields := 1 + ([flags.testBit 9, flags.testBit 10, flags.testBit 11].filter id).length
  if flags.testBit 8 then
    (List.range sampleCount).mapM fun i => u32At body (first + i * (fields * 4))
  else defaultDuration.map (List.replicate sampleCount)

def trunsOf (traf : Bytes) : List Bytes :=
  ((iterBoxes traf).filter fun b => b.kind = fourcc 't' 'r' 'u' 'n').map BoxRef.body

def trafsOf (moofBody : Bytes) : List Bytes :=
  ((iterBoxes moofBody).filter fun b => b.kind = fourcc 't' 'r' 'a' 'f').map BoxRef.body

/-- The known track of a fragment, with a timescale, and the default duration of its samples. -/
def trackOf (tracks : List TrackInfo) (traf : Bytes) : Option (TrackInfo × Option Nat) := do
  let tfhd ← findBox traf (fourcc 't' 'f' 'h' 'd')
  let (trackId, tfhdDefault) ← parseTfhd tfhd
  let info ← tracks.find? fun track => track.trackId = trackId
  if info.timescale = 0 then none
  else return (info, tfhdDefault.or info.defaultSampleDuration)

def allTicks (traf : Bytes) (defaultDuration : Option Nat) : Option Nat :=
  if trunsOf traf = [] then none
  else ((trunsOf traf).mapM (sampleDurations · defaultDuration)).map fun runs =>
    (runs.map List.sum).sum

def wholeMs (tracks : List TrackInfo) (traf : Bytes) : Option Nat := do
  let (info, defaultDuration) ← trackOf tracks traf
  let ticks ← allTicks traf defaultDuration
  return roundMs ticks info.timescale

def timedMs (tracks : List TrackInfo) (traf : Bytes) : Option Nat :=
  (trafTicks tracks traf).map fun (info, ticks) => exactMs ticks info.timescale

section Runs

variable {body : Bytes} {defaultDuration : Option Nat}

theorem u32At_lt {offset n : Nat} (read : u32At body offset = some n) : n < 2 ^ 32 := by
  unfold u32At at read
  split at read
  · rename_i inside
    rw [← Option.some.inj read]
    have four : ((body.drop offset).take 4).length = 4 := by
      rw [List.length_take, List.length_drop]
      omega
    match word : (body.drop offset).take 4, four with
    | [a, b, c, d], _ =>
      simp only [fromBe32, List.foldl_cons, List.foldl_nil]
      have bounds := And.intro (And.intro a.toNat_lt b.toNat_lt) (And.intro c.toNat_lt d.toNat_lt)
      omega
  · cases read

theorem sum_le_of_forall_lt {ds : List Nat} {bound : Nat} (small : ∀ d ∈ ds, d < bound) :
    ds.sum ≤ ds.length * bound := by
  induction ds with
  | nil => exact Nat.zero_le _
  | cons d rest ih =>
    have head := small d List.mem_cons_self
    have tail := ih fun d member => small d (List.mem_cons_of_mem _ member)
    rw [List.sum_cons, List.length_cons, Nat.succ_mul]
    omega

theorem mapM_eq_some {α β : Type} {f : α → Option β} {xs : List α} {ys : List β}
    (all : xs.mapM f = some ys) :
    ys.length = xs.length ∧ ∀ y ∈ ys, ∃ x ∈ xs, f x = some y := by
  induction xs generalizing ys with
  | nil =>
    rw [List.mapM_nil] at all
    rw [← Option.some.inj all]
    exact ⟨rfl, fun _ none => (nomatch none)⟩
  | cons x xs ih =>
    rw [List.mapM_cons] at all
    obtain ⟨y, first, rest⟩ := Option.bind_eq_some_iff.mp all
    obtain ⟨ys', others, same⟩ := Option.bind_eq_some_iff.mp rest
    rw [← Option.some.inj same]
    obtain ⟨length, each⟩ := ih others
    refine ⟨congrArg (· + 1) length, fun z member => ?_⟩
    obtain rfl | later := List.mem_cons.mp member
    · exact ⟨x, List.mem_cons_self, first⟩
    · obtain ⟨x', there, found⟩ := each z later
      exact ⟨x', List.mem_cons_of_mem _ there, found⟩

theorem sumDurations_eq (stride count offset total : Nat) (fits : total < 2 ^ 64) :
    sumDurations body stride count offset total =
      ((List.range count).mapM fun i => u32At body (offset + i * stride)).map fun ds =>
        (total + ds.sum) % 2 ^ 64 := by
  induction count generalizing offset total with
  | zero =>
    rw [sumDurations, List.range_zero, List.mapM_nil]
    exact congrArg some (Nat.mod_eq_of_lt fits).symm
  | succ count ih =>
    have shift : (fun i => u32At body (offset + Nat.succ i * stride)) =
        fun i => u32At body (offset + stride + i * stride) := by
      funext i
      rw [Nat.succ_mul, Nat.add_assoc, Nat.add_comm stride]
    rw [sumDurations, List.range_succ_eq_map, List.mapM_cons, List.mapM_map, Nat.zero_mul,
      Nat.add_zero]
    change _ = Option.map _ ((u32At body offset).bind fun d => _)
    rw [Function.comp_def, shift]
    cases u32At body offset with
    | none => rfl
    | some duration =>
      dsimp only
      rw [ih _ _ (Nat.mod_lt _ (by decide)), Option.bind_some]
      cases (List.range count).mapM fun i => u32At body (offset + stride + i * stride) with
      | none => rfl
      | some rest =>
        refine congrArg some ?_
        change ((total + duration) % 2 ^ 64 + rest.sum) % 2 ^ 64 =
          (total + (duration :: rest).sum) % 2 ^ 64
        rw [List.sum_cons]
        omega

theorem parseTrunDurationTicks_eq :
    parseTrunDurationTicks body defaultDuration =
      (sampleDurations body defaultDuration).map List.sum := by
  unfold parseTrunDurationTicks sampleDurations
  cases flagsOf body with
  | none => rfl
  | some flags =>
    cases counted : u32At body 4 with
    | none => rfl
    | some sampleCount =>
      dsimp only [Option.bind_eq_bind, Option.bind_some]
      split
      · rw [sumDurations_eq _ _ _ _ (by decide)]
        refine Option.map_congr fun ds read => ?_
        obtain ⟨length, each⟩ := mapM_eq_some read
        rw [List.length_range] at length
        have few := u32At_lt counted
        have bound := sum_le_of_forall_lt fun d member =>
          let ⟨_, _, field⟩ := each d member
          u32At_lt field
        rw [length] at bound
        have most : sampleCount * 2 ^ 32 < 2 ^ 64 := by omega
        rw [Nat.zero_add, Nat.mod_eq_of_lt (by omega)]
      · cases defaultDuration with
        | none => rfl
        | some duration => exact congrArg some List.sum_replicate_nat.symm

theorem filterMap_of_mapM {α β γ : Type} {f : α → Option β} {xs : List α} {ys : List β}
    (all : xs.mapM f = some ys) (g : β → γ) :
    xs.filterMap (fun x => (f x).map g) = ys.map g := by
  induction xs generalizing ys with
  | nil =>
    rw [List.mapM_nil] at all
    rw [← Option.some.inj all]
    rfl
  | cons x xs ih =>
    rw [List.mapM_cons] at all
    obtain ⟨y, first, rest⟩ := Option.bind_eq_some_iff.mp all
    obtain ⟨ys', others, same⟩ := Option.bind_eq_some_iff.mp rest
    rw [← Option.some.inj same, List.filterMap_cons, first, ih others]
    rfl

theorem foldl_mod (ds : List Nat) (total m : Nat) :
    ds.foldl (fun total d => (total + d) % m) (total % m) = (total + ds.sum) % m := by
  induction ds generalizing total with
  | nil => rfl
  | cons d rest ih =>
    rw [List.foldl_cons, Nat.mod_add_mod, ih, List.sum_cons, Nat.add_assoc]

theorem foldl_best {α : Type} (toMs : α → Nat) (xs : List α) :
    xs.foldl (fun best x => some (best.elim (toMs x) (max (toMs x)))) none =
      (xs.map toMs).max? := by
  cases xs with
  | nil => rfl
  | cons x xs =>
    rw [List.foldl_cons, List.map_cons, List.max?_cons']
    change xs.foldl _ (some (toMs x)) = _
    generalize toMs x = best
    induction xs generalizing best with
    | nil => rfl
    | cons y rest ih =>
      rw [List.foldl_cons, List.map_cons, List.foldl_cons, Nat.max_comm best]
      exact ih _

end Runs

section Tracks

variable {tracks : List TrackInfo} {traf moofBody : Bytes} {defaultDuration : Option Nat}

theorem totalTicks_of_allTicks {ticks : Nat} (all : allTicks traf defaultDuration = some ticks) :
    totalTicks traf defaultDuration = some (ticks % 2 ^ 64) := by
  unfold allTicks at all
  split at all
  · cases all
  · rename_i some
    obtain ⟨runs, timed, rfl⟩ := Option.map_eq_some_iff.mp all
    have read : ((iterBoxes traf).filter fun b => b.kind = fourcc 't' 'r' 'u' 'n').filterMap
        (fun b => parseTrunDurationTicks b.body defaultDuration) = runs.map List.sum := by
      rw [← filterMap_of_mapM timed List.sum, trunsOf, List.filterMap_map]
      exact List.filterMap_congr fun b _ => parseTrunDurationTicks_eq
    unfold totalTicks
    rw [read]
    split
    · rename_i none
      have empty : trunsOf traf = [] := by
        rw [← List.length_eq_zero_iff, ← (mapM_eq_some timed).1,
          List.map_eq_nil_iff.mp none]
        rfl
      exact absurd empty some
    · exact congrArg Option.some ((foldl_mod (runs.map List.sum) 0 (2 ^ 64)).trans
        (congrArg (· % 2 ^ 64) (Nat.zero_add _)))

theorem trafTicks_eq : trafTicks tracks traf = (trackOf tracks traf).bind fun (info, default) =>
    (totalTicks traf default).map fun ticks => (info, ticks) := by
  unfold trafTicks trackOf
  cases findBox traf (fourcc 't' 'f' 'h' 'd') with
  | none => rfl
  | some tfhd =>
    cases parsed : parseTfhd tfhd with
    | none => simp [parsed]
    | some header =>
      obtain ⟨trackId, tfhdDefault⟩ := header
      simp only [Option.bind_eq_bind, Option.bind_some, parsed]
      cases tracks.find? fun track => track.trackId = trackId with
      | none => rfl
      | some info =>
        dsimp only [Option.bind_some]
        split
        · rfl
        · change _ = (totalTicks traf (tfhdDefault.or info.defaultSampleDuration)).map fun ticks =>
            (info, ticks)
          cases totalTicks traf (tfhdDefault.or info.defaultSampleDuration) with
          | none => rfl
          | some ticks => rfl

theorem trackOf_spec {info : TrackInfo} {default : Option Nat}
    (found : trackOf tracks traf = some (info, default)) : info ∈ tracks ∧ 0 < info.timescale := by
  unfold trackOf at found
  obtain ⟨tfhd, -, found⟩ := Option.bind_eq_some_iff.mp found
  obtain ⟨⟨trackId, tfhdDefault⟩, -, found⟩ := Option.bind_eq_some_iff.mp found
  obtain ⟨known, listed, found⟩ := Option.bind_eq_some_iff.mp found
  split at found
  · cases found
  · rename_i timed
    cases found
    exact ⟨List.mem_of_find?_eq_some listed, Nat.pos_of_ne_zero timed⟩

theorem wholeMs_eq_some {ms : Nat} (whole : wholeMs tracks traf = some ms) :
    ∃ info default ticks, trackOf tracks traf = some (info, default) ∧
      allTicks traf default = some ticks ∧ roundMs ticks info.timescale = ms ∧
        timedMs tracks traf = some (exactMs (ticks % 2 ^ 64) info.timescale) := by
  unfold wholeMs at whole
  obtain ⟨⟨info, default⟩, found, whole⟩ := Option.bind_eq_some_iff.mp whole
  obtain ⟨ticks, all, whole⟩ := Option.bind_eq_some_iff.mp whole
  refine ⟨info, default, ticks, found, all, Option.some.inj whole, ?_⟩
  rw [timedMs, trafTicks_eq, found, Option.bind_some]
  dsimp only
  rw [totalTicks_of_allTicks all]
  rfl

theorem timedMs_of_wholeMs (words : ∀ track ∈ tracks, track.timescale < 2 ^ 32) {ms : Nat}
    (whole : wholeMs tracks traf = some ms) (fits : ms < 2 ^ 32) : timedMs tracks traf = some ms := by
  obtain ⟨info, default, ticks, found, -, rounded, timed⟩ := wholeMs_eq_some whole
  obtain ⟨listed, positive⟩ := trackOf_spec found
  have word := words info listed
  have short : ticks < 2 ^ 64 := by
    rw [← rounded, roundMs, Nat.div_lt_iff_lt_mul (by omega)] at fits
    omega
  rw [timed, Nat.mod_eq_of_lt short, exactMs, rounded, Nat.min_eq_left (by omega)]

theorem fragmentDurationMs_eq : fragmentDurationMs exactMs moofBody tracks =
    ((trafsOf moofBody).filterMap (timedMs tracks)).max? := by
  have read : (trafsOf moofBody).filterMap (timedMs tracks) =
      (((iterBoxes moofBody).filter fun b => b.kind = fourcc 't' 'r' 'a' 'f').filterMap fun b =>
        trafTicks tracks b.body).map fun traf => exactMs traf.2 traf.1.timescale := by
    rw [trafsOf, List.filterMap_map, List.map_filterMap]
    rfl
  rw [read, ← foldl_best]
  rfl

/-- The fragment's duration is the one of its longest track fragment, of those that can be timed as a
whole. -/
def ReadRight (tracks : List TrackInfo) (moofBody : Bytes) : Prop :=
  ∀ ms, fragmentDurationMs exactMs moofBody tracks = some ms →
    IsGreatest {whole | ∃ traf ∈ trafsOf moofBody, wholeMs tracks traf = some whole} ms

/-- No track fragment is too long for 32 bits, and one with a run that cannot be timed does not look
longer than some other that is timed as a whole. -/
structure Timed (tracks : List TrackInfo) (moofBody : Bytes) : Prop where
  fits : ∀ traf ∈ trafsOf moofBody, ∀ ms, wholeMs tracks traf = some ms → ms < 2 ^ 32
  outrun : ∀ traf ∈ trafsOf moofBody, wholeMs tracks traf = none →
    ∀ ms, timedMs tracks traf = some ms →
      ∃ other ∈ trafsOf moofBody, ∃ longer, wholeMs tracks other = some longer ∧ ms ≤ longer

/-- A fragment is read right exactly where neither a run that cannot be timed nor the width of a word
decides its duration. -/
theorem readRight_iff (words : ∀ track ∈ tracks, track.timescale < 2 ^ 32) :
    ReadRight tracks moofBody ↔ Timed tracks moofBody := by
  unfold ReadRight
  rw [fragmentDurationMs_eq]
  constructor
  · intro right
    cases longest : ((trafsOf moofBody).filterMap (timedMs tracks)).max? with
    | none =>
      have untimed : ∀ traf ∈ trafsOf moofBody, timedMs tracks traf = none := by
        intro traf member
        exact List.filterMap_eq_nil_iff.mp (List.max?_eq_none_iff.mp longest) traf member
      refine ⟨fun traf member ms whole => ?_, fun traf member _ ms timed => ?_⟩
      · obtain ⟨_, _, _, _, _, _, timed⟩ := wholeMs_eq_some whole
        rw [untimed traf member] at timed
        cases timed
      · rw [untimed traf member] at timed
        cases timed
    | some most =>
      obtain ⟨⟨best, there, found⟩, upper⟩ := right most longest
      obtain ⟨listed, above⟩ := List.max?_eq_some_iff.mp longest
      have small : most < 2 ^ 32 := by
        obtain ⟨traf, -, timed⟩ := List.mem_filterMap.mp listed
        obtain ⟨⟨info, ticks⟩, -, rfl⟩ := Option.map_eq_some_iff.mp timed
        exact lt_of_le_of_lt (Nat.min_le_right _ _) (by decide)
      refine ⟨fun traf member ms whole => ?_, fun traf member _ ms timed => ?_⟩
      · exact lt_of_le_of_lt (upper ⟨traf, member, whole⟩) small
      · exact ⟨best, there, most, found, above ms (List.mem_filterMap.mpr ⟨traf, member, timed⟩)⟩
  · rintro ⟨fits, outrun⟩ ms longest
    obtain ⟨listed, above⟩ := List.max?_eq_some_iff.mp longest
    have upper : ∀ traf ∈ trafsOf moofBody, ∀ whole, wholeMs tracks traf = some whole →
        whole ≤ ms := fun traf member whole found =>
      above whole (List.mem_filterMap.mpr
        ⟨traf, member, timedMs_of_wholeMs words found (fits traf member whole found)⟩)
    refine ⟨?_, fun whole ⟨traf, member, found⟩ => upper traf member whole found⟩
    obtain ⟨traf, member, timed⟩ := List.mem_filterMap.mp listed
    cases found : wholeMs tracks traf with
    | some whole =>
      have same := timedMs_of_wholeMs words found (fits traf member whole found)
      rw [timed] at same
      exact ⟨traf, member, found.trans same.symm⟩
    | none =>
      obtain ⟨other, there, longer, known, le⟩ := outrun traf member found ms timed
      have same : longer = ms := le_antisymm (upper other there longer known) le
      exact ⟨other, there, same ▸ known⟩

end Tracks

section Boxes

def boxOf (kind : Bytes) (body : Bytes) : Bytes :=
  [0, 0, 0, (boxHeaderLen + body.length).toUInt8] ++ kind ++ body

def firstTraf (runs : List Bytes) : Bytes :=
  boxOf (fourcc 't' 'r' 'a' 'f')
    (boxOf (fourcc 't' 'f' 'h' 'd') [0, 0, 0, 0, 0, 0, 0, 1] ++
      (runs.map (boxOf (fourcc 't' 'r' 'u' 'n'))).flatten)

def halfSecond : Bytes := [0, 0, 1, 0, 0, 0, 0, 1, 0, 0, 0, 1]

def untimedRun : Bytes := [0, 0, 0, 0, 0, 0, 0, 1]

end Boxes

/-- Two runs of half a second are a second. -/
theorem two_runs_read_right :
    fragmentDurationMs exactMs (firstTraf [halfSecond, halfSecond]) [⟨1, 2, none⟩] = some 1000 ∧
      ReadRight [⟨1, 2, none⟩] (firstTraf [halfSecond, halfSecond]) := by
  have whole : trafsOf (firstTraf [halfSecond, halfSecond]) =
      [(firstTraf [halfSecond, halfSecond]).drop 8] := by decide
  have second : wholeMs [⟨1, 2, none⟩] ((firstTraf [halfSecond, halfSecond]).drop 8) = some 1000 := by
    decide
  refine ⟨by decide, (readRight_iff fun track member => ?_).mpr
    ⟨fun traf member ms found => ?_, fun traf member none => ?_⟩⟩
  · rw [List.mem_singleton.mp member]
    decide
  · rw [whole] at member
    rw [List.mem_singleton.mp member, second] at found
    rw [← Option.some.inj found]
    decide
  · rw [whole] at member
    rw [List.mem_singleton.mp member, second] at none
    cases none

/-- Of two runs, one without any duration, the other alone is reported. -/
theorem untimed_run_left_out :
    fragmentDurationMs exactMs (firstTraf [halfSecond, untimedRun]) [⟨1, 2, none⟩] = some 500 ∧
      ¬ ReadRight [⟨1, 2, none⟩] (firstTraf [halfSecond, untimedRun]) := by
  have reported : fragmentDurationMs exactMs (firstTraf [halfSecond, untimedRun])
      [⟨1, 2, none⟩] = some 500 := by decide
  refine ⟨reported, fun right => ?_⟩
  obtain ⟨⟨traf, member, whole⟩, -⟩ := right 500 reported
  have untimed : ∀ traf ∈ trafsOf (firstTraf [halfSecond, untimedRun]),
      wholeMs [⟨1, 2, none⟩] traf = none := by decide
  rw [untimed traf member] at whole
  cases whole

end Tomb.Grimoire.Radio.Mp4
