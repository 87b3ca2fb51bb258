import Tomb.Grimoire.Maintenance.RerunSteps
import Tomb.Lib.Entries

/-! A reorganization that is run again moves every song and video that it lists, if no file lies in
its way. -/
namespace Tomb.Grimoire.Maintenance.Reorganize
open Tomb.Lib

section Ranks

def Stage.early : Stage → Nat
  | .loading | .blobLoading _ | .resuming _ _ _ | .claiming _ _ _ _ => 1
  | _ => 0

@[grind =] def Stage.rank (room : Nat) : Stage → Nat
  | .loading => room + 20
  | .blobLoading _ => room + 19
  | .resuming _ _ _ => room + 18
  | .claiming _ _ _ attempted => room - attempted.length + 17
  | .checking _ _ => 16
  | .reading _ _ => 15
  | .persisting _ _ _ => 14
  | .embedding _ _ => 13
  | .measuring _ _ _ => 12
  | .rehashing _ _ _ => 11
  | .selecting _ _ _ _ => 10
  | .ensuring _ _ _ _ _ => 9
  | .updating _ _ _ _ _ => 8
  | .verifying _ _ _ => 7
  | .removing _ => 6
  | .moved | .alreadyDone | .failed => 0

theorem Stage.rank_mono (stage : Stage) {room more : Nat} (le : room ≤ more) :
    stage.rank room ≤ stage.rank more := by
  cases stage with
  | loading | blobLoading | resuming | claiming => simp only [Stage.rank]; omega
  | _ => exact Nat.le_refl _

/-- A step uses up room by as much as it claims, and the move gets closer to its end. -/
structure Nears (store next : Store) (stage later : Stage) : Prop where
  claims : next.claims.rows.length + later.early ≤ store.claims.rows.length + stage.early
  rank : ∀ room, next.claims.rows.length ≤ room → later.rank room < stage.rank room

variable {run : Run} {index : Nat} {item : Item} {outcome : Outcome} {store next : Store}
  {stage later : Stage}

theorem Nears.of_rank (claims : next.claims = store.claims) (early : later.early ≤ stage.early)
    (rank : ∀ room, later.rank room < stage.rank room) : Nears store next stage later := by
  refine ⟨?_, fun room _ => rank room⟩
  rw [claims]
  omega

theorem nears_claiming {media : Media} {blob : MediaBlob} {source : Path} {attempted : List Path}
    (tried : ∀ rest, later = .claiming media blob source rest →
      rest.length ≤ next.claims.rows.length)
    (advanced : run.advance index item outcome store (.claiming media blob source attempted) =
      some (later, next)) : Nears store next (.claiming media blob source attempted) later := by
  dsimp only [Run.advance] at advanced
  split at advanced
  · cases advanced
    exact .of_rank rfl (Nat.zero_le _) fun _ => Nat.succ_pos _
  · split at advanced
    · rename_i claims inserted
      cases advanced
      refine ⟨?_, fun room _ => by simp only [Stage.rank]; omega⟩
      have length : claims.rows.length = store.claims.rows.length + 1 := by
        unfold Table.insert at inserted
        split at inserted
        · cases inserted
          exact List.length_append
        · cases inserted
      exact Nat.le_of_eq length
    · cases advanced
      have length := tried _ rfl
      refine ⟨Nat.le_refl _, fun room enough => ?_⟩
      rw [List.length_cons] at length
      simp only [Stage.rank, List.length_cons]
      omega

theorem copied_rank (item : Item) (move : Move) (size : Option Nat) (sourceHash : String) :
    (Run.copied item move size sourceHash).early = 0 ∧
      ∀ room, (Run.copied item move size sourceHash).rank room < 14 := by
  unfold Run.copied
  split
  · split
    · exact ⟨rfl, fun _ => (by decide : 13 < 14)⟩
    · exact ⟨rfl, fun _ => (by decide : 12 < 14)⟩
  · exact ⟨rfl, fun _ => (by decide : 10 < 14)⟩

theorem nears (tried : ∀ media blob source rest, later = .claiming media blob source rest →
      rest.length ≤ next.claims.rows.length)
    (advanced : run.advance index item outcome store stage = some (later, next)) :
    Nears store next stage later := by
  cases stage with
  | claiming => exact nears_claiming (tried _ _ _) advanced
  | resuming =>
    dsimp only [Run.advance] at advanced
    split at advanced
    · split at advanced <;> cases advanced <;>
        exact .of_rank rfl (Nat.le_of_ble_eq_true rfl) fun room => by simp only [Stage.rank]; omega
    · split at advanced <;> cases advanced
      · exact .of_rank rfl (Nat.le_of_ble_eq_true rfl) fun room => Nat.succ_pos _
      · exact .of_rank rfl (Nat.le_of_ble_eq_true rfl) fun room => Nat.lt_succ_self _
  | persisting =>
    dsimp only [Run.advance] at advanced
    split at advanced
    · cases advanced
      exact .of_rank rfl (Nat.le_of_ble_eq_true rfl) fun _ => (by decide : 0 < 14)
    · split at advanced
      · cases advanced
        exact .of_rank rfl (Nat.le_of_ble_eq_true rfl) fun _ => (by decide : 0 < 14)
      · cases advanced
        obtain ⟨early, rank⟩ := copied_rank item _ _ _
        exact .of_rank rfl (Nat.le_of_eq early) rank
  | loading | blobLoading | checking | reading | embedding | measuring | rehashing | selecting
  | ensuring | updating | verifying | removing =>
    dsimp only [Run.advance] at advanced
    repeat' split at advanced
    all_goals
      cases advanced
      exact .of_rank rfl (Nat.le_of_ble_eq_true rfl) fun room => by
        simp only [Stage.rank]
        omega
  | moved | alreadyDone | failed => cases advanced

end Ranks

namespace Plan

def key (entry : Item × Stage) : Kind × String := (entry.1.kind, entry.1.id)

/-- What holds throughout a run: each item is a candidate of the start and knows where it is, and
the candidates of a list that has been made are settled or among the items. -/
structure Sound (plan : Plan) (origin : Store) (rerun : Rerun) : Prop where
  kept : plan.Kept origin rerun.world.store
  distinct : (rerun.world.items.map key).Nodup
  listed : ∀ entry ∈ rerun.world.items, rerun.listed entry.1.kind = true
  knows : ∀ entry ∈ rerun.world.items, entry.1.dryRun = false ∧ ∃ media blob path,
    media.id = entry.1.id ∧ plan.Candidate origin entry.1.kind media blob path ∧
      plan.Knows origin rerun.world.store entry.1 media blob path entry.2
  covered : ∀ {kind media blob path}, rerun.listed kind = true →
    plan.Candidate origin kind media blob path →
      plan.Settled rerun.world.store blob.id ∨ (kind, media.id) ∈ rerun.world.items.map key

variable {plan : Plan} {origin : Store} {rerun : Rerun}

theorem Kept.start : plan.Kept origin origin :=
  ⟨rfl, fun _ held => .inl held, fun row held => ⟨row, held, rfl⟩, fun _ => .inr rfl⟩

theorem Sound.start : plan.Sound origin ⟨⟨origin, []⟩, fun _ => false⟩ :=
  ⟨.start, List.nodup_nil, fun _ member => (nomatch member), fun _ member => (nomatch member),
    fun listed => (nomatch listed)⟩

variable {kind : Kind} {media : Media} {blob : MediaBlob} {path : Path}

theorem Kept.candidate {store : Store} (kept : plan.Kept origin store) (candidate : plan.Candidate store kind media blob path) :
    plan.Candidate origin kind media blob path := by
  refine ⟨kept.media ▸ candidate.live, ?_, candidate.joined, candidate.named, candidate.listed⟩
  refine (kept.rows blob candidate.held).resolve_right ?_
  rintro ⟨dest, named, arrived⟩
  have listed := candidate.listed
  rw [Option.some.inj (candidate.named.symm.trans named), arrived.not_candidate kind] at listed
  cases listed

theorem listCandidateIds_nodup (kind : Kind) (store : Store) :
    (plan.listCandidateIds kind store).Nodup :=
  (store.media kind).unique.sublist (List.filter_sublist.map _)

theorem Sound.enqueue (sound : plan.Sound origin rerun)
    (fresh : rerun.listed kind = false) : plan.Sound origin (plan.step (.enqueue kind) rerun) := by
  let store := rerun.world.store
  let batch := (plan.listCandidateIds kind store).map fun id =>
    ((⟨kind, id, false, plan.embedTags⟩ : Item), Stage.loading)
  have keys : batch.map key = (plan.listCandidateIds kind store).map (Prod.mk kind) := by
    rw [List.map_map]
    rfl
  refine ⟨sound.kept, ?_, ?_, ?_, ?_⟩
  · change ((rerun.world.items ++ batch).map key).Nodup
    rw [List.map_append, keys]
    have distinct : ((plan.listCandidateIds kind store).map (Prod.mk kind)).Nodup :=
      (listCandidateIds_nodup kind store).map fun _ _ same => (Prod.mk.inj same).2
    refine sound.distinct.append distinct ?_
    intro pair old new
    obtain ⟨entry, member, rfl⟩ := List.mem_map.mp old
    obtain ⟨id, -, same⟩ := List.mem_map.mp new
    have other : rerun.listed (key entry).1 = true := sound.listed entry member
    rw [← same] at other
    exact Bool.false_ne_true (fresh.symm.trans other)
  · intro entry member
    rcases List.mem_append.mp member with old | new
    · exact (Bool.or_eq_true ..).mpr (.inr (sound.listed entry old))
    · obtain ⟨id, -, rfl⟩ := List.mem_map.mp new
      exact (Bool.or_eq_true ..).mpr (.inl (decide_eq_true rfl))
  · intro entry member
    rcases List.mem_append.mp member with old | new
    · exact sound.knows entry old
    · obtain ⟨id, listed, rfl⟩ := List.mem_map.mp new
      obtain ⟨media, blob, path, same, candidate⟩ := mem_listCandidateIds.mp listed
      exact ⟨rfl, media, blob, path, same, sound.kept.candidate candidate, trivial⟩
  · intro other media blob path listed candidate
    change _ ∨ (other, media.id) ∈ (rerun.world.items ++ batch).map key
    rw [List.map_append, keys, List.mem_append]
    rcases (Bool.or_eq_true ..).mp listed with new | old
    · obtain rfl := of_decide_eq_true new
      refine (sound.kept.row candidate).imp_right fun held => .inr (List.mem_map_of_mem ?_)
      exact mem_listCandidateIds.mpr ⟨media, blob, path, rfl, sound.kept.media ▸ candidate.live,
        held, candidate.joined, candidate.named, candidate.listed⟩
    · exact (sound.covered old candidate).imp_right .inl

section Advancing

variable {index : Nat} {outcome : Outcome} {item : Item} {stage : Stage}

theorem step_advance {later : Stage} {next : Store}
    (there : rerun.world.items[index]? = some (item, stage))
    (advanced : plan.advance index item outcome rerun.world.store stage = some (later, next)) :
    plan.step (.advance index outcome) rerun =
      ⟨⟨next, rerun.world.items.set index (item, later)⟩, rerun.listed⟩ := by
  rw [Plan.step, Run.step, there]
  dsimp only
  rw [advanced]

theorem advance_some (going : stage.ended = false) :
    ∃ later next, plan.advance index item outcome rerun.world.store stage = some (later, next) := by
  cases stage with
  | moved | alreadyDone | failed => cases going
  | _ =>
    dsimp only [Run.advance]
    repeat' split
    all_goals exact ⟨_, _, rfl⟩

theorem keys_set {later : Stage} (there : rerun.world.items[index]? = some (item, stage)) :
    (rerun.world.items.set index (item, later)).map key = rerun.world.items.map key := by
  refine List.ext_getElem? fun i => ?_
  rw [List.getElem?_map, List.getElem?_map, List.getElem?_set]
  split
  · rename_i same
    subst same
    rw [there, if_pos (List.getElem?_eq_some_iff.mp there).1]
    rfl
  · rfl

theorem Sound.differs (sound : plan.Sound origin rerun)
    (there : rerun.world.items[index]? = some (item, stage)) {i : Nat} {entry : Item × Stage}
    (other : rerun.world.items[i]? = some entry) (apart : index ≠ i) :
    ¬(item.kind = entry.1.kind ∧ item.id = entry.1.id) := by
  rintro ⟨kind, id⟩
  have inside : index < (rerun.world.items.map key).length := by
    rw [List.length_map]
    exact (List.getElem?_eq_some_iff.mp there).1
  refine apart ((List.getElem?_inj inside sound.distinct).mp ?_)
  rw [List.getElem?_map, List.getElem?_map, there, other]
  exact congrArg some (Prod.ext kind id)

theorem Sound.advance (resumable : plan.Resumable origin) (sound : plan.Sound origin rerun)
    (works : Works (.advance index outcome) rerun) (clear : Clear (.advance index outcome) rerun) :
    plan.Sound origin (plan.step (.advance index outcome) rerun) := by
  obtain ⟨errorless, ⟨item, stage⟩, there, going, noNul⟩ := works
  obtain ⟨free, untaken⟩ := clear _ there
  obtain ⟨later, next, advanced⟩ := advance_some going
  rw [step_advance there advanced]
  have member := List.mem_of_getElem? there
  obtain ⟨wet, media, blob, path, named, candidate, knows⟩ := sound.knows _ member
  have stepped := advance_stepped resumable sound.kept candidate errorless named wet noNul free
    untaken knows advanced
  have placed {entry : Item × Stage}
      (inside : entry ∈ rerun.world.items.set index (item, later)) :
      entry = (item, later) ∨ ∃ i, index ≠ i ∧ rerun.world.items[i]? = some entry := by
    obtain ⟨i, found⟩ := List.getElem?_of_mem inside
    rw [List.getElem?_set] at found
    split at found
    · split at found
      · exact .inl (Option.some.inj found).symm
      · cases found
    · rename_i apart
      exact .inr ⟨i, apart, found⟩
  refine ⟨stepped.kept, ?_, ?_, ?_, ?_⟩
  · rw [keys_set there]
    exact sound.distinct
  · intro entry inside
    rcases placed inside with rfl | ⟨i, -, found⟩
    · exact sound.listed (item, stage) member
    · exact sound.listed entry (List.mem_of_getElem? found)
  · intro entry inside
    rcases placed inside with rfl | ⟨i, apart, found⟩
    · exact ⟨wet, media, blob, path, named, candidate, stepped.knows⟩
    · obtain ⟨wet, media, blob, path, named, candidate, knows⟩ :=
        sound.knows entry (List.mem_of_getElem? found)
      exact ⟨wet, media, blob, path, named, candidate,
        stepped.leaves.knows (sound.differs there found apart) knows⟩
  · intro kind media blob path listed candidate
    rw [keys_set there]
    exact (sound.covered listed candidate).imp_left stepped.leaves.settled

end Advancing

theorem Sound.step {act : Act} (resumable : plan.Resumable origin) (works : Works act rerun)
    (clear : Clear act rerun) (sound : plan.Sound origin rerun) :
    plan.Sound origin (plan.step act rerun) := by
  cases act with
  | enqueue kind => exact sound.enqueue works
  | advance index outcome => exact sound.advance resumable works clear

theorem Sound.settled (sound : plan.Sound origin rerun) {entry : Item × Stage}
    (member : entry ∈ rerun.world.items) (ended : entry.2.ended = true)
    (candidate : plan.Candidate origin entry.1.kind media blob path)
    (named : media.id = entry.1.id) : plan.Settled rerun.world.store blob.id := by
  obtain ⟨-, media', blob', path', named', candidate', knows⟩ := sound.knows entry member
  obtain rfl := (origin.media entry.1.kind).eq_of_key_eq candidate.live candidate'.live
    (named.trans named'.symm)
  rw [candidate.joined, ← candidate'.joined]
  cases stage : entry.2 with
  | moved | alreadyDone | failed => rw [stage] at knows; exact knows
  | _ => rw [stage] at ended; cases ended

theorem Sound.inTarget (sound : plan.Sound origin rerun) (candidate : plan.Candidate origin kind media blob path)
    (settled : plan.Settled rerun.world.store blob.id) :
    plan.InTarget rerun.world.store kind media.id := by
  obtain ⟨row, held, same, path, named, arrived⟩ := settled
  exact ⟨media, sound.kept.media ▸ candidate.live, rfl, row, held, same.trans candidate.joined,
    path, named, arrived.inside⟩

/-- Once no batch has an item left, every candidate of the start is settled. -/
theorem Sound.finished (sound : plan.Sound origin rerun) (finished : rerun.Finished)
    (candidate : plan.Candidate origin kind media blob path) :
    plan.Settled rerun.world.store blob.id := by
  rcases sound.covered (finished.listed kind) candidate with settled | listed
  · exact settled
  · obtain ⟨entry, member, same⟩ := List.mem_map.mp listed
    obtain ⟨rfl, id⟩ := Prod.mk.inj same
    exact sound.settled member (finished.ended entry member) candidate id.symm

theorem Sound.listCandidateIds_eq_nil (sound : plan.Sound origin rerun) (finished : rerun.Finished)
    (kind : Kind) : plan.listCandidateIds kind rerun.world.store = [] := by
  refine List.eq_nil_iff_forall_not_mem.mpr fun id listed => ?_
  obtain ⟨media, blob, path, -, candidate⟩ := mem_listCandidateIds.mp listed
  obtain ⟨row, held, same, dest, named, arrived⟩ :=
    sound.finished finished (sound.kept.candidate candidate)
  obtain rfl := rerun.world.store.blobs.eq_of_key_eq held candidate.held same
  have listed := candidate.listed
  rw [Option.some.inj (candidate.named.symm.trans named), arrived.not_candidate kind] at listed
  cases listed

end Plan

namespace Rerun

@[grind =] def unlisted (rerun : Rerun) (kind : Kind) : Nat :=
  if rerun.listed kind then 0 else (rerun.world.store.media kind).rows.length

def room (rerun : Rerun) : Nat :=
  rerun.world.store.claims.rows.length + (rerun.world.items.map fun entry => entry.2.early).sum +
    (rerun.unlisted .song + rerun.unlisted .video)

def lists (rerun : Rerun) : Nat :=
  (if rerun.listed .song then 0 else 1) + (if rerun.listed .video then 0 else 1)

@[grind =] def left (rerun : Rerun) : Nat :=
  (rerun.world.items.map fun entry => entry.2.rank rerun.room).sum +
    (rerun.unlisted .song + rerun.unlisted .video) * (rerun.room + 20) + rerun.lists

variable {plan : Plan} {origin : Store} {rerun : Rerun}

theorem sum_rank_mono (items : List (Item × Stage)) {room more : Nat} (le : room ≤ more) :
    (items.map fun entry => entry.2.rank room).sum ≤
      (items.map fun entry => entry.2.rank more).sum := by
  induction items with
  | nil => exact Nat.le_refl _
  | cons entry rest ih =>
    have first := entry.2.rank_mono le
    simp only [List.map_cons, List.sum_cons]
    omega

theorem listed_le (kind : Kind) (store : Store) :
    (plan.listCandidateIds kind store).length ≤ (store.media kind).rows.length := by
  rw [Plan.listCandidateIds, List.length_map]
  exact List.length_filter_le _ _

theorem left_enqueue {kind : Kind} (fresh : rerun.listed kind = false) :
    (plan.step (.enqueue kind) rerun).left < rerun.left := by
  let n := (plan.listCandidateIds kind rerun.world.store).length
  let after := plan.step (.enqueue kind) rerun
  let more := after.unlisted .song + after.unlisted .video
  have sums (f : Stage → Nat) : (after.world.items.map fun entry => f entry.2).sum =
      (rerun.world.items.map fun entry => f entry.2).sum + n * f .loading := by
    simp [after, Plan.step, n, Function.comp_def]
  have fewer : more + n ≤ rerun.unlisted .song + rerun.unlisted .video := by
    have few : n ≤ (rerun.world.store.media kind).rows.length := listed_le kind _
    cases kind with
    | song =>
      simp only [more, after, unlisted, Plan.step, fresh, decide_true, Bool.true_or, if_true,
        reduceCtorEq, decide_false, Bool.false_or, if_false]
      omega
    | video =>
      simp only [more, after, unlisted, Plan.step, fresh, decide_true, Bool.true_or, if_true,
        reduceCtorEq, decide_false, Bool.false_or, if_false]
      omega
  have lists : after.lists < rerun.lists := by
    cases kind with
    | song => simp [after, Rerun.lists, Plan.step, fresh]
    | video => simp [after, Rerun.lists, Plan.step, fresh]
  have room : after.room ≤ rerun.room := by
    have early := sums Stage.early
    have claims : after.world.store.claims.rows.length =
      rerun.world.store.claims.rows.length := rfl
    rw [Stage.early, Nat.mul_one] at early
    unfold Rerun.room
    omega
  have ranks := sum_rank_mono rerun.world.items room
  have moves : (n + more) * (after.room + 20) ≤
      (rerun.unlisted .song + rerun.unlisted .video) * (rerun.room + 20) :=
    Nat.mul_le_mul (by omega) (by omega)
  rw [Nat.add_mul] at moves
  have total := sums (Stage.rank after.room)
  change (after.world.items.map fun entry => entry.2.rank after.room).sum +
    more * (after.room + 20) + after.lists < rerun.left
  rw [total, Stage.rank, Rerun.left]
  omega

theorem left_advance {index : Nat} {item : Item} {stage later : Stage} {next : Store}
    (there : rerun.world.items[index]? = some (item, stage))
    (media : next.media = rerun.world.store.media)
    (nears : Nears rerun.world.store next stage later) :
    left ⟨⟨next, rerun.world.items.set index (item, later)⟩, rerun.listed⟩ < rerun.left := by
  let after : Rerun := ⟨⟨next, rerun.world.items.set index (item, later)⟩, rerun.listed⟩
  have unlisted (kind : Kind) : after.unlisted kind = rerun.unlisted kind := by
    simp only [Rerun.unlisted, after, media]
  have room : after.room ≤ rerun.room := by
    have early : (after.world.items.map fun entry => entry.2.early).sum + stage.early =
        (rerun.world.items.map fun entry => entry.2.early).sum + later.early :=
      sum_map_set (fun entry => entry.2.early) (item, later) there
    have claims : after.world.store.claims.rows.length + later.early ≤ _ := nears.claims
    have song := unlisted .song
    have video := unlisted .video
    unfold Rerun.room
    omega
  have ranks : (after.world.items.map fun entry => entry.2.rank after.room).sum +
      stage.rank after.room = (rerun.world.items.map fun entry => entry.2.rank after.room).sum +
        later.rank after.room :=
    sum_map_set (fun entry => entry.2.rank after.room) (item, later) there
  have nearer : later.rank after.room < stage.rank after.room := by
    have claims : next.claims.rows.length = after.world.store.claims.rows.length := rfl
    refine nears.rank _ ?_
    unfold Rerun.room
    omega
  have mono := sum_rank_mono rerun.world.items room
  have lists : (rerun.unlisted .song + rerun.unlisted .video) * (after.room + 20) ≤
      (rerun.unlisted .song + rerun.unlisted .video) * (rerun.room + 20) :=
    Nat.mul_le_mul_left _ (by omega)
  change (after.world.items.map fun entry => entry.2.rank after.room).sum +
    (after.unlisted .song + after.unlisted .video) * (after.room + 20) + rerun.lists < rerun.left
  rw [unlisted, unlisted, Rerun.left]
  omega

/-- A run that has not finished goes on, unless no system could make the file that is next. -/
theorem goes_on (going : ¬rerun.Finished) : (∃ act, Works act rerun) ∨
    ∃ entry ∈ rerun.world.items, ∃ dest ∈ entry.2.aim, '\x00' ∈ dest := by
  by_contra stuck
  obtain ⟨idle, noNul⟩ := not_or.mp stuck
  refine going ⟨fun kind => ?_, fun entry member => ?_⟩
  · cases listed : rerun.listed kind with
    | true => rfl
    | false => exact absurd ⟨.enqueue kind, listed⟩ idle
  · cases ended : entry.2.ended with
    | true => rfl
    | false =>
      obtain ⟨index, there⟩ := List.getElem?_of_mem member
      refine absurd ⟨.advance index {}, by decide, entry, there, ended, ?_⟩ idle
      exact fun dest aimed nul => noNul ⟨entry, member, dest, aimed, nul⟩

def most (store : Store) : Nat :=
  let items := (store.media .song).rows.length + (store.media .video).rows.length
  items * (store.claims.rows.length + items + 20) + 2

def start (store : Store) : Rerun := ⟨⟨store, []⟩, fun _ => false⟩

theorem left_start (store : Store) : (start store).left = most store := by
  have room : (start store).room = store.claims.rows.length +
      ((store.media .song).rows.length + (store.media .video).rows.length) := rfl
  rw [left, room]
  change 0 + ((store.media .song).rows.length + (store.media .video).rows.length) * _ + 2 = _
  rw [Nat.zero_add, most]

end Rerun

namespace Plan

variable {plan : Plan} {origin : Store} {rerun : Rerun}

theorem Knows.attempts {store : Store} {item : Item} {media : Media} {blob : MediaBlob}
    {path : Path} {row : Media} {file : MediaBlob} {source : Path} {attempted : List Path}
    (knows : plan.Knows origin store item media blob path (.claiming row file source attempted)) :
    attempted.length ≤ store.claims.rows.length := by
  obtain ⟨-, -, -, distinct, taken⟩ := knows
  have inside : attempted ⊆ store.claims.rows.map (·.relativePath) := by
    intro path member
    obtain ⟨claim, held, same⟩ := taken path member
    exact List.mem_map.mpr ⟨claim, held, same⟩
  simpa using distinct.length_le_of_subset inside

theorem left_step {act : Act} (resumable : plan.Resumable origin) (works : Works act rerun)
    (clear : Clear act rerun) (sound : plan.Sound origin rerun) :
    (plan.step act rerun).left < rerun.left := by
  cases act with
  | enqueue kind => exact Rerun.left_enqueue works
  | advance index outcome =>
    have after := sound.advance resumable works clear
    obtain ⟨-, ⟨item, stage⟩, there, going, -⟩ := works
    obtain ⟨later, next, advanced⟩ := advance_some going
    rw [step_advance there advanced] at after ⊢
    have media : next.media = rerun.world.store.media :=
      after.kept.media.trans sound.kept.media.symm
    refine Rerun.left_advance there media (nears ?_ advanced)
    intro row file source rest claiming
    have inside := (List.getElem?_eq_some_iff.mp there).1
    obtain ⟨-, _, _, _, -, -, knows⟩ := after.knows _ (List.mem_set inside (item, later))
    rw [claiming] at knows
    exact knows.attempts

/-- A run that starts from a store that can be resumed, that meets no error and finds no file in its
way and no other row with the hash of a tagged file, takes so many steps at most; what it counts as
done is inside the target, and once it has finished so is every candidate, and none is left. -/
theorem rerun_completes (plan : Plan) (store : Store) (resumable : plan.Resumable store)
    (acts : List Act) (meets : Meets plan.step (fun act rerun => Works act rerun ∧ Clear act rerun)
      acts (Rerun.start store)) :
    let last := runAll plan.step acts (Rerun.start store)
    acts.length ≤ Rerun.most store ∧
      (¬last.Finished → (∃ act, Works act last) ∨
        ∃ entry ∈ last.world.items, ∃ dest ∈ entry.2.aim, '\x00' ∈ dest) ∧
      (∀ entry ∈ last.world.items, entry.2 = .alreadyDone →
        plan.InTarget last.world.store entry.1.kind entry.1.id) ∧
      (last.Finished → ∀ kind, plan.listCandidateIds kind last.world.store = [] ∧
        ∀ id ∈ plan.listCandidateIds kind store, plan.InTarget last.world.store kind id) := by
  intro last
  have keeps : ∀ act rerun, Works act rerun ∧ Clear act rerun → plan.Sound store rerun →
      plan.Sound store (plan.step act rerun) :=
    fun _ _ fits => Sound.step resumable fits.1 fits.2
  have sound : plan.Sound store last := meets.keeps keeps .start
  refine ⟨?_, Rerun.goes_on, ?_, fun finished kind => ⟨?_, ?_⟩⟩
  · rw [← Rerun.left_start]
    have falls : ∀ act rerun, Works act rerun ∧ Clear act rerun → plan.Sound store rerun →
        (plan.step act rerun).left < rerun.left :=
      fun _ _ fits => left_step resumable fits.1 fits.2
    exact meets.length_le Rerun.left keeps falls .start
  · intro entry member done
    obtain ⟨-, media, blob, path, named, candidate, knows⟩ := sound.knows entry member
    rw [done] at knows
    exact named ▸ sound.inTarget candidate knows
  · exact sound.listCandidateIds_eq_nil finished kind
  · intro id listed
    obtain ⟨media, blob, path, rfl, candidate⟩ := mem_listCandidateIds.mp listed
    exact sound.inTarget candidate (sound.finished finished candidate)

end Plan

instance (rerun : Rerun) : Decidable rerun.Finished :=
  decidable_of_iff (rerun.listed .song = true ∧ rerun.listed .video = true ∧
      ∀ entry ∈ rerun.world.items, entry.2.ended = true)
    ⟨fun ⟨song, video, ended⟩ => ⟨fun kind => by cases kind <;> assumption, ended⟩,
      fun ⟨listed, ended⟩ => ⟨listed .song, listed .video, ended⟩⟩

def plainPlan : Plan where
  targetRoot := "/t".toList
  naming _ _ _ := ⟨['a'], ['n'], ['e']⟩
  hash content := String.ofList (content.map fun _ => '1')
  source
    | .song => "/s".toList
    | .video => "/v".toList
  embedTags := false
  accepted := by rfl

theorem nodup_songMedia : ([⟨"song", "blob", "n"⟩].map Media.id).Nodup := List.nodup_singleton _

def songStore : Store where
  disk path := if path = "/s/a".toList then some [0] else none
  blobs := ⟨[⟨"blob", some "/s/a".toList, some "1", none, none⟩], List.nodup_singleton _⟩
  media
    | .song => ⟨[⟨"song", "blob", "n"⟩], nodup_songMedia⟩
    | .video => ∅
  claims := ∅

theorem songStore_resumable : plainPlan.Resumable songStore := by
  have only {kind : Kind} {media : Media} {blob : MediaBlob} {path : Path}
      (candidate : plainPlan.Candidate songStore kind media blob path) :
      blob = ⟨"blob", some "/s/a".toList, some "1", none, none⟩ ∧ path = "/s/a".toList := by
    obtain rfl := List.mem_singleton.mp candidate.held
    exact ⟨rfl, (Option.some.inj candidate.named).symm⟩
  refine ⟨fun candidate => ?_, fun one other => ?_, fun candidate => ?_⟩
  · obtain ⟨rfl, rfl⟩ := only candidate
    exact ⟨[0], rfl, fun _ known => Option.some.inj known⟩
  · rw [(only one).1, (only other).1]
  · obtain ⟨-, rfl⟩ := only candidate
    rfl

def moveSong : List Act :=
  .enqueue .song :: .enqueue .video :: List.replicate 13 (.advance 0 {})

theorem song_is_moved :
    let last := runAll plainPlan.step moveSong (Rerun.start songStore)
    last.Finished ∧ plainPlan.listCandidateIds .song last.world.store = [] ∧
      plainPlan.InTarget last.world.store .song "song" := by
  intro last
  have meets : Meets plainPlan.step (fun act rerun => Works act rerun ∧ Clear act rerun) moveSong
      (Rerun.start songStore) := by decide
  have finished : last.Finished := by decide
  have listed : "song" ∈ plainPlan.listCandidateIds .song songStore := by decide
  obtain ⟨-, -, -, completes⟩ :=
    Plan.rerun_completes plainPlan songStore songStore_resumable moveSong meets
  obtain ⟨none, all⟩ := completes finished .song
  exact ⟨finished, none, all "song" listed⟩

def stopped : List Op :=
  .start ⟨.song, "song", false, false⟩ :: List.replicate 7 (.advance 0 {})

/-- The next run refuses its own copy, and has finished with the song left where it was. -/
theorem staged_copy_is_refused :
    let crashed := (runAll plainPlan.toRun.step stopped { store := songStore }).store
    let acts : List Act := .enqueue .song :: .enqueue .video :: List.replicate 4 (.advance 0 {})
    let last := runAll plainPlan.step acts (Rerun.start crashed)
    Meets plainPlan.step Works acts (Rerun.start crashed) ∧ last.Finished ∧
      plainPlan.listCandidateIds .song crashed = ["song"] ∧
      plainPlan.listCandidateIds .song last.world.store = ["song"] ∧
      ¬plainPlan.InTarget last.world.store .song "song" := by
  decide

end Tomb.Grimoire.Maintenance.Reorganize
