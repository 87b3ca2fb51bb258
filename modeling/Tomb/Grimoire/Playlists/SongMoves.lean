import Mathlib.Algebra.Group.Int.Defs
import Tomb.Grimoire.Playlists.Positions

/-! Songs moved within a playlist, whose other items share the positions with them. -/
namespace Tomb.Grimoire.Playlists
open Tomb.Lib

namespace Tables

variable (t : Tables) (playlistId : String)

def positionOf (ref : Ref) : Int :=
  ((t.playlistItemz.get (playlistId, ref)).map PlaylistItem.position).getD 0

/-- The playlist's items in the order of their positions, none of which is shared. -/
structure Shows (order : List Ref) : Prop where
  items : order.Perm (t.refs playlistId)
  ascending : order.Pairwise fun a b => t.positionOf playlistId a < t.positionOf playlistId b

/-- A move gives the item a new position: a chosen song, or one that is found in the library. -/
@[grind =] def renumbers (songIds : List String) (ref : Ref) : Bool :=
  ref.1 = .song &&
    (ref.2 ∈ songIds || (t.hasPlaylist playlistId && (t.songz.get ref.2).isSome))

def leftAt (ref : Ref) : Int :=
  if ref.1 = .song then -t.positionOf playlistId ref else t.positionOf playlistId ref

end Tables

/-- The place among other items that a position stands for: below 1 the front, too far the back. -/
def clamped (newPosition : Int) (others : Nat) : Nat := min (newPosition - 1).toNat others

@[grind =] def chosen (songIds : List String) : List Ref := songIds.map (Prod.mk .song)

@[grind =] def others (before : List Ref) (songIds : List String) : List Ref :=
  before.filter (· ∉ chosen songIds)

/-- The order that a move is to leave: the chosen songs together, all else as it was. -/
def movedOrder (before : List Ref) (songIds : List String) (newPosition : Int) : List Ref :=
  insertBlock (others before songIds) (chosen songIds)
    (clamped newPosition (others before songIds).length)

variable {t : Tables} {playlistId : String}

theorem mem_entries_iff {ref : Ref} {position : Int} :
    (ref, position) ∈ t.entries playlistId ↔
      ref ∈ t.refs playlistId ∧ position = t.positionOf playlistId ref := by
  have found {item : PlaylistItem} (present : item ∈ t.playlistItemz)
      (same : item.key = (playlistId, ref)) : t.positionOf playlistId ref = item.position := by
    rw [Tables.positionOf, (Table.get_eq_some _ _ item).mpr ⟨present, same⟩]
    rfl
  simp only [Tables.mem_refs, Tables.entries, Tables.items, List.mem_map, Table.mem_select,
    decide_eq_true_eq, Prod.mk.injEq]
  constructor
  · rintro ⟨item, ⟨present, own⟩, rfl, rfl⟩
    have same : item.key = (playlistId, item.ref) := congrArg (·, item.ref) own
    exact ⟨⟨item, present, same⟩, (found present same).symm⟩
  · rintro ⟨⟨item, present, same⟩, rfl⟩
    obtain ⟨own, ref⟩ := Prod.mk.inj same
    exact ⟨item, ⟨present, own⟩, ref, (found present same).symm⟩

theorem Tables.Shows.nodup {order : List Ref} (shows_ : t.Shows playlistId order) : order.Nodup :=
  shows_.items.nodup_iff.mpr (Tables.refs_nodup t playlistId)

theorem eq_of_position_eq {order : List Ref} {position : Ref → Int}
    (ascending : order.Pairwise fun a b => position a < position b) {a b : Ref}
    (memberA : a ∈ order) (memberB : b ∈ order) (same : position a = position b) : a = b :=
  List.inj_on_of_nodup_map (List.pairwise_map.mpr (ascending.imp ne_of_lt)) memberA memberB same

section Moves

variable {before : List Ref} {songIds : List String}

variable {ref : Ref}

theorem renumbers_iff : t.renumbers playlistId songIds ref = true ↔ ref.1 = .song ∧
    (ref.2 ∈ songIds ∨ (t.hasPlaylist playlistId = true ∧ (t.songz.get ref.2).isSome = true)) := by
  simp only [Tables.renumbers, Bool.and_eq_true, Bool.or_eq_true, decide_eq_true_eq]

theorem mem_chosen : ref ∈ chosen songIds ↔ ref.1 = .song ∧ ref.2 ∈ songIds := by
  rw [chosen, List.mem_map]
  constructor
  · rintro ⟨songId, member, rfl⟩
    exact ⟨rfl, member⟩
  · rintro ⟨song, member⟩
    exact ⟨ref.2, member, Prod.ext song.symm rfl⟩

theorem chosen_renumbers (member : ref ∈ chosen songIds) :
    t.renumbers playlistId songIds ref = true :=
  renumbers_iff.mpr ((mem_chosen.mp member).imp_right .inl)

theorem movedOrder_perm (shows_ : t.Shows playlistId before) (distinct : songIds.Nodup)
    (members : ∀ songId ∈ songIds, (TaggableEntity.song, songId) ∈ before) (newPosition : Int) :
    (movedOrder before songIds newPosition).Perm before := by
  have nodup : (chosen songIds).Nodup := distinct.map fun _ _ same => (Prod.mk.inj same).2
  have inside : ((before.filter (· ∈ chosen songIds)).Perm (chosen songIds)) :=
    (List.perm_ext_iff_of_nodup (shows_.nodup.filter _) nodup).mpr fun ref => by
      rw [List.mem_filter, decide_eq_true_eq, and_iff_right_iff_imp]
      intro member
      obtain ⟨songId, moved, rfl⟩ := List.mem_map.mp member
      exact members songId moved
  refine (insertBlock_perm ..).trans (List.perm_append_comm.trans ?_)
  refine (inside.symm.append_right _).trans ?_
  simpa only [others, decide_not] using List.filter_append_perm (· ∈ chosen songIds) before

theorem listedSongs_refs (shows_ : t.Shows playlistId before) :
    (t.listedSongs playlistId).map (Prod.mk TaggableEntity.song) =
      before.filter (t.renumbers playlistId []) := by
  unfold Tables.listedSongs
  split
  · rename_i there
    let listed (item : PlaylistItem) : Bool :=
      item.entityType = .song && (t.songz.get item.entityId).isSome
    let rows := ((t.items playlistId).filter listed).mergeSort fun a b => a.position ≤ b.position
    have row {item : PlaylistItem} (member : item ∈ rows) :
        item.entityType = .song ∧ t.positionOf playlistId item.ref = item.position := by
      obtain ⟨its, matched⟩ := List.mem_filter.mp ((List.mergeSort_perm _ _).mem_iff.mp member)
      have entry : (item.ref, item.position) ∈ t.entries playlistId := List.mem_map_of_mem its
      exact ⟨of_decide_eq_true ((Bool.and_eq_true ..).mp matched).1,
        (mem_entries_iff.mp entry).2.symm⟩
    have refs : (rows.map PlaylistItem.entityId).map (Prod.mk TaggableEntity.song) =
        rows.map PlaylistItem.ref := by
      rw [List.map_map]
      exact List.map_congr_left fun item member => Prod.ext (row member).1.symm rfl
    have same : (rows.map PlaylistItem.ref).Perm (before.filter (t.renumbers playlistId [])) := by
      have items : (rows.map PlaylistItem.ref).Perm
          ((t.refs playlistId).filter (t.renumbers playlistId [])) := by
        rw [Tables.refs, Tables.entries, List.map_map, List.filter_map]
        refine ((List.mergeSort_perm _ _).map _).trans (.of_eq ?_)
        refine congrArg (List.map _) (List.filter_congr fun item _ => ?_)
        simp [Tables.renumbers, there, listed, PlaylistItem.ref]
      exact items.trans (shows_.items.symm.filter _)
    change (rows.map PlaylistItem.entityId).map _ = _
    rw [refs]
    let below (a b : Ref) : Prop := t.positionOf playlistId a ≤ t.positionOf playlistId b
    refine @List.Perm.eq_of_pairwise _ below _ _ ?_ ?_ ?_ same
    · intro a b memberA memberB below above
      exact eq_of_position_eq shows_.ascending
        (List.mem_of_mem_filter (same.mem_iff.mp memberA)) (List.mem_of_mem_filter memberB)
        (le_antisymm below above)
    · refine List.pairwise_map.mpr ?_
      have sorted : rows.Pairwise fun a b => a.position ≤ b.position := by
        let le (a b : PlaylistItem) : Bool := a.position ≤ b.position
        have ordered := @List.pairwise_mergeSort _ le (by simp [le]; omega) (by simp [le]; omega)
          ((t.items playlistId).filter listed)
        simpa [le] using ordered
      refine sorted.imp_of_mem fun {a b} memberA memberB le => ?_
      change t.positionOf playlistId a.ref ≤ t.positionOf playlistId b.ref
      rwa [(row memberA).2, (row memberB).2]
    · exact (shows_.ascending.imp le_of_lt).filter _
  · rename_i missing
    have none : ∀ ref ∈ before, ¬t.renumbers playlistId [] ref = true := fun ref _ => by
      simp [Tables.renumbers, missing]
    rw [List.filter_eq_nil_iff.mpr none]
    rfl

def renumbered (t : Tables) (playlistId : String) (songIds : List String) (newPosition : Int) :
    List Ref :=
  chosen (newOrder (t.listedSongs playlistId) songIds newPosition)

theorem others_renumbered (shows_ : t.Shows playlistId before) (songIds : List String) :
    (others before songIds).filter (t.renumbers playlistId songIds) =
      chosen ((t.listedSongs playlistId).filter (· ∉ songIds)) := by
  have listed := congrArg (List.filter (· ∉ chosen songIds)) (listedSongs_refs shows_)
  rw [List.filter_map, List.filter_filter] at listed
  have own : ((fun ref => decide (ref ∉ chosen songIds)) ∘ Prod.mk TaggableEntity.song) =
      fun songId => decide (songId ∉ songIds) := by
    funext songId
    simp [mem_chosen]
  rw [chosen, ← own, listed, others, List.filter_filter]
  refine List.filter_congr fun ref _ => ?_
  by_cases moved : ref ∈ chosen songIds
  · simp [moved]
  · have unlisted : ref.1 = .song → ref.2 ∉ songIds := fun song member =>
      moved (mem_chosen.mpr ⟨song, member⟩)
    by_cases song : ref.1 = .song
    · simp [Tables.renumbers, moved, unlisted song]
    · simp [Tables.renumbers, song]

theorem renumbered_eq (shows_ : t.Shows playlistId before) (songIds : List String)
    (newPosition : Int) :
    renumbered t playlistId songIds newPosition =
      insertBlock ((others before songIds).filter (t.renumbers playlistId songIds)) (chosen songIds)
        (insertAt newPosition
          ((others before songIds).countP (t.renumbers playlistId songIds))) := by
  rw [List.countP_eq_length_filter, others_renumbered shows_, chosen, chosen, List.length_map,
    ← map_insertBlock]
  rfl

theorem movedOrder_renumbered (newPosition : Int) :
    (movedOrder before songIds newPosition).filter (t.renumbers playlistId songIds) =
      insertBlock ((others before songIds).filter (t.renumbers playlistId songIds)) (chosen songIds)
        (((others before songIds).take
          (clamped newPosition (others before songIds).length)).countP
            (t.renumbers playlistId songIds)) :=
  filter_insertBlock _ _ _ fun _ => chosen_renumbers

theorem movedOrder_left (newPosition : Int) : (movedOrder before songIds newPosition).filter
      (!t.renumbers playlistId songIds ·) =
    before.filter (!t.renumbers playlistId songIds ·) := by
  rw [movedOrder, filter_insertBlock_out, others, List.filter_filter]
  · refine List.filter_congr fun ref _ => ?_
    by_cases member : ref ∈ chosen songIds
    · simp [chosen_renumbers member, member]
    · simp [member]
  · intro ref member
    simp [chosen_renumbers member]

theorem renumbered_perm (shows_ : t.Shows playlistId before) (newPosition : Int) :
    (renumbered t playlistId songIds newPosition).Perm
      ((movedOrder before songIds newPosition).filter (t.renumbers playlistId songIds)) := by
  rw [renumbered_eq shows_, movedOrder_renumbered]
  exact (insertBlock_perm ..).trans (insertBlock_perm ..).symm

def moved (t : Tables) (playlistId : String) (songIds : List String) (newPosition : Int) : Tables :=
  (updateSongsPosition playlistId songIds newPosition t).2

theorem moved_refs (newPosition : Int) :
    (moved t playlistId songIds newPosition).refs playlistId = t.refs playlistId := by
  rw [Tables.refs, moved, updateSongsPosition_entries, List.map_map]
  rfl

theorem moved_position (member : ref ∈ t.refs playlistId) (newPosition : Int) :
    (moved t playlistId songIds newPosition).positionOf playlistId ref =
      movedTo (newOrder (t.listedSongs playlistId) songIds newPosition)
        (ref, t.positionOf playlistId ref) := by
  refine (mem_entries_iff.mp ?_).2.symm
  rw [moved, updateSongsPosition_entries]
  exact List.mem_map.mpr ⟨_, mem_entries_iff.mpr ⟨member, rfl⟩, rfl⟩

variable (shows_ : t.Shows playlistId before) (distinct : songIds.Nodup)
  (members : ∀ songId ∈ songIds, (TaggableEntity.song, songId) ∈ before)
include shows_ distinct members

variable {newPosition : Int}

theorem mem_renumbered : ref ∈ renumbered t playlistId songIds newPosition ↔
      ref ∈ before ∧ t.renumbers playlistId songIds ref = true := by
  rw [(renumbered_perm shows_ newPosition).mem_iff, List.mem_filter,
    (movedOrder_perm shows_ distinct members newPosition).mem_iff]

theorem position_renumbered (member : ref ∈ renumbered t playlistId songIds newPosition) :
    ∃ i : Nat, (renumbered t playlistId songIds newPosition)[i]? = some ref ∧
      (moved t playlistId songIds newPosition).positionOf playlistId ref = (i : Int) + 1 := by
  obtain ⟨inside, matched⟩ := (mem_renumbered shows_ distinct members).mp member
  rw [moved_position (shows_.items.mem_iff.mp inside)]
  exact assigned_of_mem member _

theorem position_left (inside : ref ∈ before) (left : ¬t.renumbers playlistId songIds ref = true) :
    (moved t playlistId songIds newPosition).positionOf playlistId ref =
      t.leftAt playlistId ref := by
  rw [moved_position (shows_.items.mem_iff.mp inside), movedTo, assigned_of_not_mem]
  · rfl
  · intro member
    exact left ((mem_renumbered shows_ distinct members).mp member).2

end Moves

/-- The place among the songs is the one that the position names: it does not lie in front of the
first item while there are other songs, and the other items in front of it are all songs, or have
all the songs among them. -/
def TargetsSongs (t : Tables) (playlistId : String) (before : List Ref) (songIds : List String)
    (newPosition : Int) : Prop :=
  let rest := others before songIds
  let front := rest.take (clamped newPosition rest.length)
  let back := rest.drop (clamped newPosition rest.length)
  (1 ≤ newPosition ∨ rest.countP (t.renumbers playlistId songIds) = 0) ∧
    ((∀ ref ∈ front, t.renumbers playlistId songIds ref = true) ∨
      ∀ ref ∈ back, ¬t.renumbers playlistId songIds ref = true)

/-- What a move needs to leave the order that it is asked for. The songs are numbered from one on,
so every other item has to stand in front of all of them, with a position that is not positive, or
behind all of them, with a position greater than their number. -/
structure Movable (t : Tables) (playlistId : String) (before : List Ref) (songIds : List String)
    (newPosition : Int) : Prop where
  target : songIds = [] ∨ TargetsSongs t playlistId before songIds newPosition
  front : (movedOrder before songIds newPosition).Pairwise fun a b =>
    ¬t.renumbers playlistId songIds a = true → t.renumbers playlistId songIds b = true →
      t.leftAt playlistId a ≤ 0
  back : (movedOrder before songIds newPosition).Pairwise fun a b =>
    t.renumbers playlistId songIds a = true → ¬t.renumbers playlistId songIds b = true →
      (before.countP (t.renumbers playlistId songIds) : Int) < t.leftAt playlistId b
  rest : (before.filter (!t.renumbers playlistId songIds ·)).Pairwise fun a b =>
    t.leftAt playlistId a < t.leftAt playlistId b

section Law

variable {before : List Ref} {songIds : List String} {newPosition : Int}

theorem targetsSongs_iff : TargetsSongs t playlistId before songIds newPosition ↔
    ((others before songIds).take (clamped newPosition (others before songIds).length)).countP
        (t.renumbers playlistId songIds) =
      insertAt newPosition ((others before songIds).countP (t.renumbers playlistId songIds)) := by
  unfold TargetsSongs
  generalize others before songIds = rest
  generalize t.renumbers playlistId songIds = p
  have within : clamped newPosition rest.length ≤ rest.length := Nat.min_le_right _ _
  have total : rest.countP p = (rest.take (clamped newPosition rest.length)).countP p +
      (rest.drop (clamped newPosition rest.length)).countP p := by
    rw [← List.countP_append, List.take_append_drop]
  have front := List.countP_le_length (p := p) (l := rest.take (clamped newPosition rest.length))
  have back := List.countP_le_length (p := p) (l := rest.drop (clamped newPosition rest.length))
  dsimp only
  rw [← List.countP_eq_length, ← List.countP_eq_zero]
  rw [List.length_take_of_le within] at front ⊢
  rw [List.length_drop] at back
  unfold clamped insertAt at *
  split <;> omega

variable (shows_ : t.Shows playlistId before) (distinct : songIds.Nodup)
  (members : ∀ songId ∈ songIds, (TaggableEntity.song, songId) ∈ before)
include shows_ distinct members

/-- The songs stand in the order in which they are numbered exactly if the places agree. -/
theorem renumbered_order_iff :
    (movedOrder before songIds newPosition).filter (t.renumbers playlistId songIds) =
      renumbered t playlistId songIds newPosition ↔
      songIds = [] ∨ TargetsSongs t playlistId before songIds newPosition := by
  rw [movedOrder_renumbered, renumbered_eq shows_, targetsSongs_iff]
  by_cases none : songIds = []
  · subst none
    simp only [chosen, List.map_nil, insertBlock_nil, true_or]
  · have some : chosen songIds ≠ [] := fun empty => none (List.map_eq_nil_iff.mp empty)
    have apart : ∀ ref ∈ chosen songIds,
        ref ∉ (others before songIds).filter (t.renumbers playlistId songIds) := by
      intro ref member inside
      exact of_decide_eq_true (List.mem_filter.mp (List.mem_of_mem_filter inside)).2 member
    rw [insertBlock_inj some apart, or_iff_right none]
    · rw [← List.countP_eq_length_filter]
      exact (List.take_sublist _ _).countP_le
    · rw [← List.countP_eq_length_filter]
      unfold insertAt
      split <;> omega

theorem renumbered_ascends : (renumbered t playlistId songIds newPosition).Pairwise fun a b =>
    (moved t playlistId songIds newPosition).positionOf playlistId a <
      (moved t playlistId songIds newPosition).positionOf playlistId b := by
  have nodup : (renumbered t playlistId songIds newPosition).Nodup :=
    (renumbered_perm shows_ newPosition).nodup_iff.mpr
      (((movedOrder_perm shows_ distinct members newPosition).nodup_iff.mpr shows_.nodup).filter _)
  refine List.pairwise_iff_getElem.mpr fun i j isI isJ lt => ?_
  obtain ⟨i', atI, foundI⟩ := position_renumbered shows_ distinct members
    (List.getElem_mem isI)
  obtain ⟨j', atJ, foundJ⟩ := position_renumbered shows_ distinct members
    (List.getElem_mem isJ)
  have sameI : i = i' :=
    (List.getElem?_inj isI nodup).mp ((List.getElem?_eq_getElem isI).trans atI.symm)
  have sameJ : j = j' :=
    (List.getElem?_inj isJ nodup).mp ((List.getElem?_eq_getElem isJ).trans atJ.symm)
  omega

theorem renumbered_length : (renumbered t playlistId songIds newPosition).length =
    before.countP (t.renumbers playlistId songIds) := by
  rw [(renumbered_perm shows_ newPosition).length_eq, ← List.countP_eq_length_filter]
  exact (movedOrder_perm shows_ distinct members newPosition).countP_eq _

theorem position_bounds {ref : Ref} (inside : ref ∈ before)
    (song : t.renumbers playlistId songIds ref = true) :
    0 < (moved t playlistId songIds newPosition).positionOf playlistId ref ∧
      (moved t playlistId songIds newPosition).positionOf playlistId ref ≤
        before.countP (t.renumbers playlistId songIds) := by
  have member : ref ∈ renumbered t playlistId songIds newPosition :=
    (mem_renumbered shows_ distinct members).mpr ⟨inside, song⟩
  obtain ⟨i, at_, found⟩ := position_renumbered shows_ distinct members member
  have below := (List.getElem?_eq_some_iff.mp at_).1
  rw [renumbered_length shows_ distinct members] at below
  omega

/-- The numbers of the songs are taken: no other item has one of them. -/
theorem left_outside (ascending : (movedOrder before songIds newPosition).Pairwise fun a b =>
      (moved t playlistId songIds newPosition).positionOf playlistId a <
        (moved t playlistId songIds newPosition).positionOf playlistId b) {ref : Ref}
    (inside : ref ∈ before) (left : ¬t.renumbers playlistId songIds ref = true) :
    t.leftAt playlistId ref ≤ 0 ∨
      (before.countP (t.renumbers playlistId songIds) : Int) < t.leftAt playlistId ref := by
  by_contra among
  obtain ⟨positive, below⟩ := not_or.mp among
  have whole := movedOrder_perm shows_ distinct members newPosition
  have length : (renumbered t playlistId songIds newPosition).length = _ :=
    renumbered_length shows_ distinct members
  have isI : (t.leftAt playlistId ref - 1).toNat <
      (renumbered t playlistId songIds newPosition).length := by omega
  have member := List.getElem_mem isI
  obtain ⟨i, at_, found⟩ := position_renumbered shows_ distinct members member
  have nodup : (renumbered t playlistId songIds newPosition).Nodup :=
    (renumbered_perm shows_ newPosition).nodup_iff.mpr
      ((whole.nodup_iff.mpr shows_.nodup).filter _)
  have sameI : (t.leftAt playlistId ref - 1).toNat = i :=
    (List.getElem?_inj isI nodup).mp ((List.getElem?_eq_getElem isI).trans at_.symm)
  obtain ⟨songInside, song⟩ := (mem_renumbered shows_ distinct members).mp member
  have position : (moved t playlistId songIds newPosition).positionOf playlistId ref = _ :=
    position_left shows_ distinct members inside left
  have same := eq_of_position_eq ascending (whole.mem_iff.mpr songInside)
    (whole.mem_iff.mpr inside) (by omega)
  exact left (same ▸ song)

theorem target_of_shows (shown : (moved t playlistId songIds newPosition).Shows playlistId
      (movedOrder before songIds newPosition)) :
    songIds = [] ∨ TargetsSongs t playlistId before songIds newPosition := by
  obtain ⟨songs, -⟩ := (pairwise_parts (t.renumbers playlistId songIds)).mp shown.ascending
  refine (renumbered_order_iff shows_ distinct members).mp ?_
  exact List.Perm.eq_of_pairwise (fun a b _ _ lt gt => absurd lt (lt_asymm gt)) songs
    (renumbered_ascends shows_ distinct members) (renumbered_perm shows_ newPosition).symm

/-- A move of songs leaves the order that it is asked for exactly if the place is the same among the
songs as among all items, and the other items keep clear of the songs' numbers. -/
theorem moved_shows_iff : (moved t playlistId songIds newPosition).Shows playlistId
      (movedOrder before songIds newPosition) ↔
    Movable t playlistId before songIds newPosition := by
  have whole := movedOrder_perm shows_ distinct members newPosition
  have left {ref : Ref} (inside : ref ∈ before)
      (out : ¬t.renumbers playlistId songIds ref = true) :
      (moved t playlistId songIds newPosition).positionOf playlistId ref =
        t.leftAt playlistId ref :=
    position_left shows_ distinct members inside out
  have song {ref : Ref} (inside : ref ∈ before)
      (counted : t.renumbers playlistId songIds ref = true) :
      0 < (moved t playlistId songIds newPosition).positionOf playlistId ref ∧
        (moved t playlistId songIds newPosition).positionOf playlistId ref ≤
          before.countP (t.renumbers playlistId songIds) :=
    position_bounds shows_ distinct members inside counted
  constructor
  · intro shown
    have ascending := shown.ascending
    obtain ⟨-, rest, -⟩ := (pairwise_parts (t.renumbers playlistId songIds)).mp ascending
    constructor
    · exact target_of_shows shows_ distinct members shown
    · refine ascending.imp_of_mem fun {a b} memberA memberB lt outA songB => ?_
      have insideA := whole.mem_iff.mp memberA
      have outside := left_outside shows_ distinct members ascending insideA outA
      have bounds := song (whole.mem_iff.mp memberB) songB
      rw [left insideA outA] at lt
      omega
    · refine ascending.imp_of_mem fun {a b} memberA memberB lt songA outB => ?_
      have insideB := whole.mem_iff.mp memberB
      have outside := left_outside shows_ distinct members ascending insideB outB
      have bounds := song (whole.mem_iff.mp memberA) songA
      rw [left insideB outB] at lt
      omega
    · rw [movedOrder_left] at rest
      refine rest.imp_of_mem fun {a b} memberA memberB lt => ?_
      obtain ⟨insideA, outA⟩ := List.mem_filter.mp memberA
      obtain ⟨insideB, outB⟩ := List.mem_filter.mp memberB
      rwa [left insideA (by simpa using outA), left insideB (by simpa using outB)] at lt
  · intro movable
    refine ⟨moved_refs (t := t) newPosition ▸ whole.trans shows_.items, ?_⟩
    refine (pairwise_parts (t.renumbers playlistId songIds)).mpr ⟨?_, ?_, ?_⟩
    · rw [(renumbered_order_iff shows_ distinct members).mpr movable.target]
      exact renumbered_ascends shows_ distinct members
    · rw [movedOrder_left]
      refine movable.rest.imp_of_mem fun {a b} memberA memberB lt => ?_
      obtain ⟨insideA, outA⟩ := List.mem_filter.mp memberA
      obtain ⟨insideB, outB⟩ := List.mem_filter.mp memberB
      rwa [left insideA (by simpa using outA), left insideB (by simpa using outB)]
    · refine (movable.front.and movable.back).imp_of_mem
        fun {a b} memberA memberB clear differ => ?_
      have insideA := whole.mem_iff.mp memberA
      have insideB := whole.mem_iff.mp memberB
      by_cases songA : t.renumbers playlistId songIds a = true
      · have outB : ¬t.renumbers playlistId songIds b = true := fun songB =>
          differ (songA.trans songB.symm)
        have bounds := song insideA songA
        have behind := clear.2 songA outB
        rw [left insideB outB]
        omega
      · have songB : t.renumbers playlistId songIds b = true := by
          cases counted : t.renumbers playlistId songIds b with
          | true => rfl
          | false => exact absurd (by rw [counted]; simpa using songA) differ
        have bounds := song insideB songB
        have before := clear.1 songA songB
        rw [left insideA songA]
        omega

end Law

theorem nodup_playlist : ([⟨"p", none⟩].map Playlist.id).Nodup := by decide

theorem nodup_items : ([⟨"p", .song, "a", 1, none⟩, ⟨"p", .song, "b", 2, none⟩].map
    PlaylistItem.key).Nodup := by decide

def pair : Tables where
  playlistz := ⟨[⟨"p", none⟩], nodup_playlist⟩
  songz := ⟨[⟨"a", none⟩, ⟨"b", none⟩], nodup_songs⟩
  playlistItemz := ⟨[⟨"p", .song, "a", 1, none⟩, ⟨"p", .song, "b", 2, none⟩], nodup_items⟩

theorem pair_shows : pair.Shows "p" [(.song, "a"), (.song, "b")] := ⟨by decide, by decide⟩

theorem pair_swapped : (moved pair "p" ["b"] 1).Shows "p"
      (movedOrder [(.song, "a"), (.song, "b")] ["b"] 1) :=
  (moved_shows_iff pair_shows (by decide) (by decide)).mpr
    ⟨.inr (by unfold TargetsSongs; decide), by decide, by decide, by decide⟩

/-- A position below one takes a song to the back. -/
theorem position_zero_is_back : ¬∀ (t : Tables) (playlistId : String) (before : List Ref)
    (songIds : List String) (newPosition : Int), t.Shows playlistId before → songIds.Nodup →
      (∀ songId ∈ songIds, (TaggableEntity.song, songId) ∈ before) →
      -2 ^ 63 ≤ newPosition → newPosition < 2 ^ 63 →
        (updateSongsPosition playlistId songIds newPosition t).1 = .ok () →
          (moved t playlistId songIds newPosition).Shows playlistId
            (movedOrder before songIds newPosition) := by
  intro claimed
  have shown := claimed pair "p" [(.song, "a"), (.song, "b")] ["b"] 0 pair_shows (by decide)
    (by decide) (by decide) (by decide) rfl
  have target := target_of_shows pair_shows (by decide) (by decide) shown
  revert target
  unfold TargetsSongs
  decide

end Tomb.Grimoire.Playlists
