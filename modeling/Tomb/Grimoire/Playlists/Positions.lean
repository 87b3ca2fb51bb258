import Mathlib.Data.List.Dedup
import Mathlib.Data.List.Induction
import Tomb.Lib.Ranks
import Tomb.Lib.Runs
import Tomb.Grimoire.Playlists.Items

/-! The items of a playlist are numbered from one on, without a gap and without a repetition. -/
namespace Tomb.Grimoire.Playlists
open Tomb.Lib

abbrev Entry := Ref × Int

def top (positions : List Int) : Int := (positions ++ [0]).max?.getD 0

def settle (position greatest : Int) : Int := if position = 0 then greatest + 1 else position

theorem top_spec (positions : List Int) :
    top positions ∈ positions ++ [0] ∧ ∀ p ∈ positions ++ [0], p ≤ top positions := by
  cases found : (positions ++ [0]).max? with
  | none => exact absurd (List.max?_eq_none_iff.mp found) (by simp)
  | some p =>
    have same : top positions = p := congrArg (·.getD 0) found
    rw [same]
    exact List.max?_eq_some_iff.mp found

theorem top_append (positions : List Int) (p : Int) :
    top (positions ++ [p]) = max (top positions) p := by
  obtain ⟨member, bounds⟩ := top_spec positions
  obtain ⟨member', bounds'⟩ := top_spec (positions ++ [p])
  have least : ∀ q ∈ positions ++ [0], q ≤ top (positions ++ [p]) := fun q there =>
    bounds' q (by
      rw [List.mem_append, List.mem_append]
      exact (List.mem_append.mp there).imp_left .inl)
  have own : p ≤ top (positions ++ [p]) := bounds' p (by simp)
  refine le_antisymm ?_ (max_le (least _ member) own)
  rw [List.append_assoc, List.mem_append, List.mem_append, List.mem_singleton] at member'
  obtain old | new | zero := member'
  · have below := bounds _ (List.mem_append_left _ old)
    omega
  · omega
  · have below := bounds _ (List.mem_append_right _ zero)
    omega

theorem top_ranked {positions : List Int} (ranked : Ranked positions) :
    top positions = positions.length := by
  rw [top, ranked.max]
  rfl

namespace Tables

variable (t : Tables) (playlistId : String)

@[grind =]
def entries : List Entry := (t.items playlistId).map fun item => (item.ref, item.position)

def refs : List Ref := (t.entries playlistId).map Prod.fst

def positions : List Int := (t.entries playlistId).map Prod.snd

/-- The positions of the playlist's items are exactly those from one on. -/
def Numbered : Prop := Ranked (t.positions playlistId)

variable {t playlistId}

theorem refs_nodup (t : Tables) (playlistId : String) : (t.refs playlistId).Nodup := by
  have keys : ((t.items playlistId).map PlaylistItem.key).Nodup :=
    t.playlistItemz.unique.sublist (List.filter_sublist.map _)
  have same : (t.items playlistId).map PlaylistItem.key =
      (t.refs playlistId).map (Prod.mk playlistId) := by
    rw [refs, entries, List.map_map, List.map_map]
    refine List.map_congr_left fun item member => ?_
    have own : item.playlistId = playlistId := of_decide_eq_true (List.mem_filter.mp member).2
    exact congrArg (·, item.ref) own
  rw [same] at keys
  exact keys.of_map _

theorem length_positions : (t.positions playlistId).length = (t.entries playlistId).length :=
  List.length_map _

theorem mem_refs {ref : Ref} : ref ∈ t.refs playlistId ↔
    ∃ item ∈ t.playlistItemz, item.key = (playlistId, ref) := by
  simp only [refs, entries, items, List.mem_map, Table.mem_select, exists_exists_and_eq_and,
    decide_eq_true_eq]
  constructor
  · rintro ⟨item, ⟨present, own⟩, rfl⟩
    exact ⟨item, present, congrArg (·, item.ref) own⟩
  · rintro ⟨item, present, same⟩
    obtain ⟨own, ref⟩ := Prod.mk.inj same
    exact ⟨item, ⟨present, own⟩, ref⟩

theorem items_reposition (p : PlaylistItem → Bool) (f : Int → Int) :
    (t.reposition p f).items playlistId = (t.items playlistId).map fun item =>
      if p item then item.moveTo (f item.position) else item := by
  simp only [items, Table.select, reposition, Table.update, List.filter_map]
  refine congrArg _ (List.filter_congr fun item _ => ?_)
  simp only [Function.comp_apply]
  split <;> rfl

theorem entries_reposition {p : PlaylistItem → Bool} {f : Int → Int} {q : Entry → Bool}
    (goesBy : ∀ item, item.playlistId = playlistId → p item = q (item.ref, item.position)) :
    (t.reposition p f).entries playlistId = (t.entries playlistId).map fun entry =>
      (entry.1, if q entry then f entry.2 else entry.2) := by
  rw [entries, items_reposition, entries, List.map_map, List.map_map]
  refine List.map_congr_left fun item member => ?_
  have own : item.playlistId = playlistId := of_decide_eq_true (List.mem_filter.mp member).2
  simp only [Function.comp_apply, goesBy item own]
  split <;> rfl

theorem entries_reposition_key (ref : Ref) (f : Int → Int) :
    (t.reposition (fun item => item.key = (playlistId, ref)) f).entries playlistId =
      (t.entries playlistId).map fun entry =>
        (entry.1, if entry.1 = ref then f entry.2 else entry.2) := by
  rw [entries_reposition (q := fun entry => entry.1 = ref) fun item own => ?_]
  · simp only [decide_eq_true_eq]
  · rw [PlaylistItem.key, own]
    simp only [Prod.mk.injEq, true_and]

variable {item : PlaylistItem}

theorem insertItem_ok {t' : Tables} (done : t.insertItem item = .ok t')
    (own : item.playlistId = playlistId) : t'.entries playlistId = t.entries playlistId ++
        [(item.ref, settle item.position (top (t.positions playlistId)))] ∧
      t'.playlistz = t.playlistz ∧ item.ref ∉ t.refs playlistId := by
  unfold insertItem at done
  split at done
  · cases done
  · rename_i playlistItemz inserted
    split at done
    · have rows : playlistItemz.rows = t.playlistItemz.rows ++ [item] := by
        unfold Table.insert at inserted
        split at inserted
        · cases inserted
          rfl
        · cases inserted
      have fresh : item.ref ∉ t.refs playlistId := fun old => by
        obtain ⟨other, present, same⟩ := mem_refs.mp old
        have taken := (t.playlistItemz.insert_eq_none item).mpr
          ⟨other, present, same.trans (congrArg (·, item.ref) own.symm)⟩
        cases taken.symm.trans inserted
      have before : ({ t with playlistItemz := playlistItemz } : Tables).entries playlistId =
          t.entries playlistId ++ [(item.ref, item.position)] := by
        simp only [entries, items, Table.select, rows, List.filter_append, List.map_append]
        simp only [List.filter_cons, own, decide_true, if_true, List.filter_nil, List.map_cons,
          List.map_nil]
      cases done
      unfold autoAppend
      split
      · rename_i zero
        refine ⟨?_, rfl, fresh⟩
        have key : item.key = (playlistId, item.ref) := congrArg (·, item.ref) own
        have greatest : ({ t with playlistItemz := playlistItemz } : Tables).greatest playlistId =
            top (t.positions playlistId) := by
          have positions := congrArg (List.map Prod.snd) before
          rw [List.map_append, List.map_singleton, entries, List.map_map, zero] at positions
          exact congrArg (fun l : List Int => l.max?.getD 0) positions
        have stays : ((t.entries playlistId).map fun entry => (entry.1,
            if entry.1 = item.ref then top (t.positions playlistId) + 1 else entry.2)) =
              t.entries playlistId := by
          refine (List.map_congr_left fun entry member => ?_).trans (List.map_id _)
          have other : entry.1 ≠ item.ref := fun same =>
            fresh (same ▸ List.mem_map_of_mem member)
          rw [if_neg other]
          rfl
        rw [key, entries_reposition_key, before, own, greatest, List.map_append, stays, settle,
          if_pos zero, List.map_singleton, if_pos rfl]
      · rename_i explicit
        exact ⟨by rw [before, settle, if_neg explicit], rfl, fresh⟩
    · cases done

theorem insertItem_cases (own : item.playlistId = playlistId) : (∃ t', t.insertItem item = .ok t') ∨
      (t.insertItem item = .error .unique ∧ item.ref ∈ t.refs playlistId) ∨
      (t.insertItem item = .error .foreignKey ∧ (t.playlistz.get playlistId).isSome = false) := by
  unfold insertItem
  split
  · rename_i taken
    obtain ⟨other, present, same⟩ := (t.playlistItemz.insert_eq_none item).mp taken
    exact .inr (.inl ⟨rfl, mem_refs.mpr ⟨other, present, same.trans (congrArg (·, item.ref) own)⟩⟩)
  · split
    · exact .inl ⟨_, rfl⟩
    · rename_i missing
      exact .inr (.inr ⟨rfl, own ▸ (Bool.not_eq_true _).mp missing⟩)

theorem insertItem_taken (own : item.playlistId = playlistId)
    (taken : item.ref ∈ t.refs playlistId) : t.insertItem item = .error .unique := by
  obtain ⟨other, present, same⟩ := mem_refs.mp taken
  have refused := (t.playlistItemz.insert_eq_none item).mpr
    ⟨other, present, same.trans (congrArg (·, item.ref) own.symm)⟩
  rw [insertItem, refused]

theorem deleteItem_cases (t : Tables) (playlistId : String) (ref : Ref) :
    (∃ old, (ref, old) ∈ t.entries playlistId ∧
      (t.deleteItem (playlistId, ref)).entries playlistId =
        ((t.entries playlistId).filter fun entry => entry.1 ≠ ref).map fun entry =>
          (entry.1, closeGap old entry.2)) ∨
    (ref ∉ t.refs playlistId ∧ t.deleteItem (playlistId, ref) = t) := by
  unfold deleteItem
  split
  · rename_i absent
    refine .inr ⟨fun member => ?_, rfl⟩
    obtain ⟨item, present, same⟩ := mem_refs.mp member
    exact (Table.get_eq_none _ _).mp absent item present same
  · rename_i old found
    obtain ⟨present, same⟩ := (Table.get_eq_some _ _ _).mp found
    obtain ⟨own, named⟩ := Prod.mk.inj same
    refine .inl ⟨old.position, ?_, ?_⟩
    · refine List.mem_map.mpr ⟨old, (Table.mem_select ..).mpr ⟨present, decide_eq_true own⟩, ?_⟩
      rw [named]
    · have remaining : ({ t with playlistItemz := t.playlistItemz.deleteWhere fun item =>
          item.key = (playlistId, ref) } : Tables).entries playlistId =
            (t.entries playlistId).filter fun entry => entry.1 ≠ ref := by
        simp only [entries, items, Table.select, Table.deleteWhere, List.filter_map,
          List.filter_filter]
        refine congrArg _ (List.filter_congr fun item _ => ?_)
        by_cases own : item.playlistId = playlistId
        · simp [PlaylistItem.key, own]
        · simp [own]
      rw [closeGaps, entries_reposition (q := fun entry => old.position < entry.2)
        fun item own' => ?_, remaining]
      · refine List.map_congr_left fun entry _ => ?_
        simp only [closeGap, decide_eq_true_eq]
      · simp [own, own']

theorem deleteItem_refs (ref : Ref) : (t.deleteItem (playlistId, ref)).refs playlistId =
    (t.refs playlistId).filter (· ≠ ref) := by
  obtain ⟨old, -, left⟩ | ⟨absent, same⟩ := t.deleteItem_cases playlistId ref
  · rw [refs, left, List.map_map, refs, List.filter_map]
    rfl
  · rw [same]
    refine (List.filter_eq_self.mpr fun other member => ?_).symm
    exact decide_eq_true fun named => absent (named ▸ member)

theorem entries_split {ref : Ref} {old : Int} (present : (ref, old) ∈ t.entries playlistId) :
    (t.entries playlistId).Perm
      ((ref, old) :: (t.entries playlistId).filter fun entry => entry.1 ≠ ref) := by
  have distinct := refs_nodup t playlistId
  rw [refs] at distinct
  obtain ⟨before, after, split⟩ := List.append_of_mem present
  rw [split, List.map_append, List.map_cons, List.nodup_middle, List.nodup_cons] at distinct
  have others (entry : Entry) (member : entry ∈ before ++ after) : entry.1 ≠ ref := fun same => by
    have named : entry.1 ∈ (before ++ after).map Prod.fst := List.mem_map_of_mem member
    rw [List.map_append, same] at named
    exact distinct.1 named
  have kept : (before ++ after).filter (fun entry => entry.1 ≠ ref) = before ++ after :=
    List.filter_eq_self.mpr fun entry member => decide_eq_true (others entry member)
  rw [split, List.filter_append, List.filter_cons_of_neg (by simp), ← List.filter_append, kept]
  exact List.perm_middle

theorem deleteItem_numbered (ref : Ref) (numbered : t.Numbered playlistId) :
    (t.deleteItem (playlistId, ref)).Numbered playlistId := by
  obtain ⟨old, present, left⟩ | ⟨-, same⟩ := t.deleteItem_cases playlistId ref
  · have ranked := Ranked.perm numbered ((entries_split present).map Prod.snd)
    rw [Numbered, positions, left, List.map_map]
    have removed := ranked.remove
    rwa [List.map_map] at removed
  · rw [same]
    exact numbered

theorem deleteAll_refs (gone : List Ref) :
    ((gone.map (Prod.mk playlistId)).foldl deleteItem t).refs playlistId =
      (t.refs playlistId).filter (· ∉ gone) := by
  induction gone generalizing t with
  | nil =>
    exact (List.filter_eq_self.mpr fun _ _ => decide_eq_true List.not_mem_nil).symm
  | cons ref rest ih =>
    rw [List.map_cons, List.foldl_cons, ih, deleteItem_refs, List.filter_filter]
    refine List.filter_congr fun other _ => ?_
    simp only [List.mem_cons, not_or, Bool.decide_and, ne_eq]
    rw [Bool.and_comm]

theorem deleteAll_numbered (gone : List Ref) (numbered : t.Numbered playlistId) :
    ((gone.map (Prod.mk playlistId)).foldl deleteItem t).Numbered playlistId := by
  induction gone generalizing t with
  | nil => exact numbered
  | cons ref rest ih => exact ih (deleteItem_numbered ref numbered)

theorem positions_insert {t' : Tables} (done : t.insertItem item = .ok t')
    (own : item.playlistId = playlistId) : t'.positions playlistId =
      t.positions playlistId ++ [settle item.position (top (t.positions playlistId))] := by
  rw [positions, (insertItem_ok done own).1, List.map_append]
  rfl

theorem insertItem_numbered {t' : Tables}
    (done : t.insertItem item = .ok t') (own : item.playlistId = playlistId)
    (numbered : t.Numbered playlistId)
    (last : item.position = 0 ∨ item.position = (t.items playlistId).length + 1) :
    t'.Numbered playlistId := by
  have length : ((t.positions playlistId).length : Int) = (t.items playlistId).length := by
    rw [length_positions, entries, List.length_map]
  have behind : settle item.position (top (t.positions playlistId)) =
      (t.positions playlistId).length + 1 := by
    rw [top_ranked numbered, settle]
    split
    · rfl
    · rename_i explicit
      rw [length]
      exact last.resolve_left explicit
  rw [Numbered, positions_insert done own, behind]
  refine Ranked.append numbered ?_
  simp [ranks]

end Tables

/-! The operations. -/

section Operations

variable {t : Tables} {playlistId : String}

variable {songIds : List String}

theorem addSongs_numbered (numbered : t.Numbered playlistId) :
    (addSongs playlistId songIds t).2.Numbered playlistId := by
  induction songIds generalizing t with
  | nil => exact numbered
  | cons songId rest ih =>
    rw [addSongs]
    split
    · split
      · rename_i done
        exact ih (Tables.insertItem_numbered done rfl numbered (.inl rfl))
      · exact numbered
      · exact numbered
    · exact numbered

variable {addedBy : Option String} {refs : List Ref}

theorem appendItems_numbered {inserted : List Ref} {t' : Tables} (numbered : t.Numbered playlistId)
    (done : appendItems playlistId addedBy refs t = .ok (inserted, t')) :
    t'.Numbered playlistId := by
  induction refs generalizing t inserted with
  | nil =>
    cases done
    exact numbered
  | cons ref rest ih =>
    rw [appendItems] at done
    split at done
    · exact ih numbered done
    · cases done
    · rename_i t₁ placed
      cases later : appendItems playlistId addedBy rest t₁ with
      | error error =>
        rw [later] at done
        cases done
      | ok result =>
        rw [later] at done
        cases done
        exact ih (Tables.insertItem_numbered placed rfl numbered (.inl rfl)) later

theorem addPlaylistItems_numbered (refs : List Ref) (addedBy : Option String)
    (numbered : t.Numbered playlistId) :
    (addPlaylistItems playlistId refs addedBy t).2.Numbered playlistId := by
  unfold addPlaylistItems
  split
  · exact numbered
  · rename_i done
    have kept := appendItems_numbered numbered done
    split
    · exact kept
    · exact kept

theorem removeAll_numbered (gone : List Ref) (numbered : t.Numbered playlistId) :
    (gone.foldl (fun t ref => t.deleteItem (playlistId, ref)) t).Numbered playlistId := by
  have kept := Tables.deleteAll_numbered gone numbered
  rwa [List.foldl_map] at kept

/-! Whole lists of items with their positions. -/

theorem insertOrSkip_playlistz (t : Tables) (item : PlaylistItem) :
    (insertOrSkip t item).playlistz = t.playlistz := by
  unfold insertOrSkip
  split
  · rename_i done
    exact (Tables.insertItem_ok done rfl).2.1
  · rfl

theorem insertOrSkip_taken {item : PlaylistItem} (own : item.playlistId = playlistId)
    (taken : item.ref ∈ t.refs playlistId) : insertOrSkip t item = t := by
  rw [insertOrSkip, Tables.insertItem_taken own taken]

variable {items : List PlaylistItem}

theorem insertOrSkip_missing (own : ∀ item ∈ items, item.playlistId = playlistId)
    (missing : (t.playlistz.get playlistId).isSome = false) : items.foldl insertOrSkip t = t := by
  induction items generalizing t with
  | nil => rfl
  | cons item rest ih =>
    have skips : insertOrSkip t item = t := by
      obtain ⟨t', done⟩ | ⟨refused, -⟩ | ⟨refused, -⟩ :=
        Tables.insertItem_cases (t := t) (own item List.mem_cons_self)
      · unfold Tables.insertItem at done
        split at done
        · cases done
        · rw [own item List.mem_cons_self, missing] at done
          cases done
      · rw [insertOrSkip, refused]
      · rw [insertOrSkip, refused]
    rw [List.foldl_cons, skips]
    exact ih (fun other member => own other (List.mem_cons_of_mem _ member)) missing

theorem insertOrSkip_fresh {item : PlaylistItem} (own : item.playlistId = playlistId)
    (there : (t.playlistz.get playlistId).isSome = true) (fresh : item.ref ∉ t.refs playlistId) :
    (insertOrSkip t item).entries playlistId = t.entries playlistId ++
      [(item.ref, settle item.position (top (t.positions playlistId)))] := by
  obtain ⟨t', done⟩ | ⟨-, taken⟩ | ⟨-, missing⟩ := Tables.insertItem_cases (t := t) own
  · rw [insertOrSkip, done]
    exact (Tables.insertItem_ok done own).1
  · exact absurd taken fresh
  · rw [there] at missing
    cases missing

/-- The positions that the first mention of each song gets, where 0 stands for one past the
greatest. -/
def settled (seen : List String) (greatest : Int) : List (String × Int) → List Int
  | [] => []
  | (songId, position) :: rest =>
    if songId ∈ seen then settled seen greatest rest
    else settle position greatest ::
      settled (songId :: seen) (max greatest (settle position greatest)) rest

theorem placeSongs {songs : List (String × Int)} {seen : List String}
    (there : (t.playlistz.get playlistId).isSome = true)
    (known : ∀ songId, songId ∈ seen ↔ (TaggableEntity.song, songId) ∈ t.refs playlistId) :
    ((songs.map fun song => (⟨playlistId, .song, song.1, song.2, none⟩ : PlaylistItem)).foldl
      insertOrSkip t).positions playlistId =
        t.positions playlistId ++ settled seen (top (t.positions playlistId)) songs := by
  induction songs generalizing t seen with
  | nil => exact (List.append_nil _).symm
  | cons song rest ih =>
    obtain ⟨songId, position⟩ := song
    rw [List.map_cons, List.foldl_cons, settled]
    split
    · rename_i old
      rw [insertOrSkip_taken rfl ((known songId).mp old)]
      exact ih there known
    · rename_i fresh
      have placed : (insertOrSkip t ⟨playlistId, .song, songId, position, none⟩).entries playlistId =
          t.entries playlistId ++
            [((TaggableEntity.song, songId), settle position (top (t.positions playlistId)))] :=
        insertOrSkip_fresh rfl there fun taken => fresh ((known songId).mpr taken)
      have positions := congrArg (List.map Prod.snd) placed
      have refs := congrArg (List.map Prod.fst) placed
      rw [List.map_append, List.map_singleton] at positions refs
      have later := @ih (insertOrSkip t ⟨playlistId, .song, songId, position, none⟩) (songId :: seen)
        ((congrArg (fun playlistz : Table Playlist.id => (playlistz.get playlistId).isSome)
          (insertOrSkip_playlistz ..)).trans there) fun other => ?_
      · refine later.trans ?_
        rw [Tables.positions, positions, top_append, List.append_assoc]
        rfl
      · rw [Tables.refs, refs, List.mem_append, List.mem_singleton, List.mem_cons, or_comm]
        refine or_congr (known other) ⟨fun same => congrArg (Prod.mk _) same, fun same => ?_⟩
        exact (Prod.mk.inj same).2

theorem placeAll_fresh (there : (t.playlistz.get playlistId).isSome = true)
    (own : ∀ item ∈ items, item.playlistId = playlistId ∧ item.position ≠ 0)
    (distinct : (items.map PlaylistItem.ref).Nodup)
    (fresh : ∀ item ∈ items, item.ref ∉ t.refs playlistId) :
    (items.foldl insertOrSkip t).entries playlistId =
      t.entries playlistId ++ items.map fun item => (item.ref, item.position) := by
  induction items generalizing t with
  | nil => exact (List.append_nil _).symm
  | cons item rest ih =>
    obtain ⟨its, explicit⟩ := own item List.mem_cons_self
    rw [List.map_cons, List.nodup_cons] at distinct
    have placed := insertOrSkip_fresh its there (fresh item List.mem_cons_self)
    rw [settle, if_neg explicit] at placed
    have refs := congrArg (List.map Prod.fst) placed
    rw [List.map_append, List.map_singleton] at refs
    rw [List.foldl_cons, ih ?_ (fun other member => own other (List.mem_cons_of_mem _ member))
      distinct.2 fun other member => ?_, placed, List.append_assoc]
    · rfl
    · rw [insertOrSkip_playlistz]
      exact there
    · rw [Tables.refs, refs, List.mem_append, List.mem_singleton, not_or]
      refine ⟨fresh other (List.mem_cons_of_mem _ member), fun same => distinct.1 ?_⟩
      exact List.mem_map.mpr ⟨other, member, same⟩

theorem placeAll_taken (own : ∀ item ∈ items, item.playlistId = playlistId)
    (taken : ∀ item ∈ items, item.ref ∈ t.refs playlistId) : items.foldl insertOrSkip t = t := by
  induction items with
  | nil => rfl
  | cons item rest ih =>
    rw [List.foldl_cons, insertOrSkip_taken (own item List.mem_cons_self)
      (taken item List.mem_cons_self)]
    exact ih (fun other member => own other (List.mem_cons_of_mem _ member))
      fun other member => taken other (List.mem_cons_of_mem _ member)

/-! Deletes of several items at once. -/

theorem deleteItem_playlistz (t : Tables) (key : String × Ref) :
    (t.deleteItem key).playlistz = t.playlistz := by
  unfold Tables.deleteItem
  split <;> rfl

theorem deleteItems_eq {p : PlaylistItem → Bool} (own : ∀ item, p item → item.playlistId = playlistId) :
    t.deleteItems p = (((t.playlistItemz.select p).map PlaylistItem.ref).map
      (Prod.mk playlistId)).foldl Tables.deleteItem t := by
  rw [Tables.deleteItems, List.map_map]
  refine congrArg (List.foldl _ t) (List.map_congr_left fun item member => ?_)
  exact congrArg (·, item.ref) (own item (List.mem_filter.mp member).2)

theorem deleteItems_numbered {p : PlaylistItem → Bool}
    (own : ∀ item, p item → item.playlistId = playlistId) (numbered : t.Numbered playlistId) :
    (t.deleteItems p).Numbered playlistId := by
  rw [deleteItems_eq own]
  exact Tables.deleteAll_numbered _ numbered

theorem deleteItems_playlistz (t : Tables) (p : PlaylistItem → Bool) :
    (t.deleteItems p).playlistz = t.playlistz := by
  unfold Tables.deleteItems
  generalize (t.playlistItemz.select p).map PlaylistItem.key = keys
  induction keys generalizing t with
  | nil => rfl
  | cons key rest ih => exact (ih _).trans (deleteItem_playlistz t key)

theorem deleteItems_refs {q : Ref → Bool} :
    (t.deleteItems fun item => item.playlistId = playlistId && q item.ref).refs playlistId =
      (t.refs playlistId).filter fun ref => !q ref := by
  rw [deleteItems_eq fun item matched => of_decide_eq_true ((Bool.and_eq_true ..).mp matched).1,
    Tables.deleteAll_refs]
  refine List.filter_congr fun ref member => ?_
  obtain ⟨item, present, same⟩ := Tables.mem_refs.mp member
  obtain ⟨its, rfl⟩ := Prod.mk.inj same
  cases matched : q item.ref with
  | true =>
    have gone : item ∈ t.playlistItemz.select fun item => item.playlistId = playlistId && q item.ref :=
      (Table.mem_select ..).mpr ⟨present, (Bool.and_eq_true ..).mpr ⟨decide_eq_true its, matched⟩⟩
    exact decide_eq_false fun kept => kept (List.mem_map_of_mem gone)
  | false =>
    refine decide_eq_true fun gone => ?_
    obtain ⟨other, selected, named⟩ := List.mem_map.mp gone
    have matched' := ((Bool.and_eq_true ..).mp (List.mem_filter.mp selected).2).2
    rw [named, matched] at matched'
    cases matched'

theorem length_refs : (t.refs playlistId).length = (t.positions playlistId).length := by
  rw [Tables.refs, List.length_map, Tables.length_positions]

def otherItems (t : Tables) (playlistId : String) : Nat :=
  ((t.refs playlistId).filter fun ref => ref.1 ≠ .song).length

/-- The listed songs go on where the items of other types end. -/
def Continues (playlistId : String) (songs : List (String × Int)) (t : Tables) : Prop :=
  (settled [] (otherItems t playlistId) songs).Perm
    (ranks (otherItems t playlistId) (settled [] (otherItems t playlistId) songs).length)

theorem hasPlaylist_isSome (there : t.hasPlaylist playlistId = true) :
    (t.playlistz.get playlistId).isSome = true := by
  unfold Tables.hasPlaylist at there
  split at there
  · rename_i found
    rw [found]
    rfl
  · cases there

theorem setPlaylistSongs_numbered {songs : List (String × Int)} (numbered : t.Numbered playlistId)
    (continues : t.hasPlaylist playlistId = true → Continues playlistId songs t) :
    (setPlaylistSongs playlistId songs t).2.Numbered playlistId := by
  unfold setPlaylistSongs
  split
  · rename_i there
    have cleared := deleteItems_numbered
      (p := fun item => item.playlistId = playlistId && item.entityType = .song)
      (fun item matched => of_decide_eq_true ((Bool.and_eq_true ..).mp matched).1) numbered
    have left : (t.deleteItems fun item =>
        item.playlistId = playlistId && item.entityType = .song).refs playlistId =
          (t.refs playlistId).filter fun ref => ref.1 ≠ .song := by
      refine (deleteItems_refs (q := fun ref => ref.1 = .song)).trans ?_
      exact List.filter_congr fun ref _ => decide_not.symm
    have exists_ : ((t.deleteItems fun item => item.playlistId = playlistId &&
        item.entityType = .song).playlistz.get playlistId).isSome = true := by
      rw [deleteItems_playlistz]
      exact hasPlaylist_isSome there
    generalize t.deleteItems (fun item =>
      item.playlistId = playlistId && item.entityType = .song) = t₁ at cleared left exists_ ⊢
    have length : (t₁.positions playlistId).length = otherItems t playlistId := by
      rw [← length_refs, left, otherItems]
    have none_ (songId : String) : songId ∈ [] ↔ (TaggableEntity.song, songId) ∈ t₁.refs playlistId := by
      rw [left, List.mem_filter]
      simp
    have placed := @placeSongs t₁ playlistId songs [] exists_ none_
    rw [top_ranked cleared, length] at placed
    change Ranked (((songs.map _).foldl insertOrSkip t₁).positions playlistId)
    rw [placed]
    refine Ranked.append cleared ?_
    rw [length]
    exact continues there
  · exact numbered

/-- Only behind all the different references does one repeat another. -/
def RepeatsLast (refs : List Ref) : Prop := (refs.take refs.dedup.length).Nodup

variable {ref : Ref}

theorem mem_take_of_repeatsLast (last : RepeatsLast refs)
    (member : ref ∈ refs) : ref ∈ refs.take refs.dedup.length := by
  have short : refs.dedup.length ≤ refs.length := (List.dedup_sublist refs).length_le
  have same : (refs.take refs.dedup.length).Perm refs.dedup := by
    refine (List.subperm_of_subset last fun other there => ?_).perm_of_length_le ?_
    · exact List.mem_dedup.mpr (List.mem_of_mem_take there)
    · rw [List.length_take, Nat.min_eq_left short]
  exact same.mem_iff.mpr (List.mem_dedup.mpr member)

theorem positions_zipIdx (refs : List Ref) :
    (refs.zipIdx.map fun entry => (entry.2 : Int) + 1) = ranks 0 refs.length := by
  have snd := List.zipIdx_map_snd 0 refs
  rw [ranks, List.range_eq_range', ← snd, List.map_map]
  refine List.map_congr_left fun entry _ => ?_
  simp only [Function.comp_apply]
  omega

def itemAt (playlistId : String) (addedBy : Option String) (entry : Ref × Nat) : PlaylistItem :=
  ⟨playlistId, entry.1.1, entry.1.2, entry.2 + 1, addedBy⟩

theorem itemAt_refs (addedBy : Option String) (refs : List Ref) (n : Nat) :
    ((refs.zipIdx n).map (itemAt playlistId addedBy)).map PlaylistItem.ref = refs := by
  rw [List.map_map]
  exact List.zipIdx_map_fst n refs

theorem placeItems {addedBy : Option String} {firsts repeats : List Ref}
    (empty : t.entries playlistId = []) (there : (t.playlistz.get playlistId).isSome = true)
    (distinct : firsts.Nodup) (old : ∀ ref ∈ repeats, ref ∈ firsts) :
    (((firsts ++ repeats).zipIdx.map (itemAt playlistId addedBy)).foldl insertOrSkip t).entries
      playlistId = firsts.zipIdx.map fun entry => (entry.1, (entry.2 : Int) + 1) := by
  have own (refs : List Ref) (n : Nat) :
      ∀ item ∈ (refs.zipIdx n).map (itemAt playlistId addedBy), item.playlistId = playlistId := by
    intro item member
    obtain ⟨entry, -, rfl⟩ := List.mem_map.mp member
    rfl
  have placed : ((firsts.zipIdx.map (itemAt playlistId addedBy)).foldl insertOrSkip t).entries
      playlistId = firsts.zipIdx.map fun entry => (entry.1, (entry.2 : Int) + 1) := by
    rw [placeAll_fresh there (fun item member => ⟨own firsts 0 item member, ?_⟩)
      ((itemAt_refs addedBy firsts 0).symm ▸ distinct) fun item _ => ?_, empty, List.map_map]
    · rfl
    · obtain ⟨entry, -, rfl⟩ := List.mem_map.mp member
      change (entry.2 : Int) + 1 ≠ 0
      omega
    · rw [Tables.refs, empty]
      exact List.not_mem_nil
  have refs : ((firsts.zipIdx.map (itemAt playlistId addedBy)).foldl insertOrSkip t).refs
      playlistId = firsts := by
    rw [Tables.refs, placed, List.map_map]
    exact List.zipIdx_map_fst 0 firsts
  rw [List.zipIdx_append, List.map_append, List.foldl_append, placeAll_taken (own repeats _), placed]
  intro item member
  rw [refs]
  have named := List.mem_map_of_mem (f := PlaylistItem.ref) member
  rw [itemAt_refs] at named
  exact old _ named

theorem setPlaylistItems_numbered
    (last : RepeatsLast refs) : (setPlaylistItems playlistId refs addedBy t).2.Numbered playlistId := by
  have left : (t.deleteItems fun item => item.playlistId = playlistId).refs playlistId = [] := by
    have all : (t.deleteItems fun item => item.playlistId = playlistId && true).refs playlistId = _ :=
      deleteItems_refs (q := fun _ => true)
    simp only [Bool.and_true, Bool.not_true, List.filter_false] at all
    exact all
  change ((refs.zipIdx.map (itemAt playlistId addedBy)).foldl insertOrSkip
    (t.deleteItems fun item => item.playlistId = playlistId)).Numbered playlistId
  generalize (t.deleteItems fun item => item.playlistId = playlistId) = t₁ at left ⊢
  have empty : t₁.entries playlistId = [] := List.map_eq_nil_iff.mp left
  have own : ∀ item ∈ refs.zipIdx.map (itemAt playlistId addedBy), item.playlistId = playlistId := by
    intro item member
    obtain ⟨entry, -, rfl⟩ := List.mem_map.mp member
    rfl
  cases there : (t₁.playlistz.get playlistId).isSome with
  | false =>
    rw [insertOrSkip_missing own there, Tables.Numbered, Tables.positions, empty]
    exact ranked_nil
  | true =>
    have whole : refs.take refs.dedup.length ++ refs.drop refs.dedup.length = refs :=
      List.take_append_drop _ _
    have old : ∀ ref ∈ refs.drop refs.dedup.length, ref ∈ refs.take refs.dedup.length :=
      fun ref member => mem_take_of_repeatsLast last (List.mem_of_mem_drop member)
    have placed := @placeItems t₁ playlistId addedBy _ _ empty there last old
    rw [whole] at placed
    rw [Tables.Numbered, Tables.positions, placed, List.map_map, Ranked, List.length_map,
      List.length_zipIdx, ← positions_zipIdx]
    exact .refl _

/-! New positions for the items in place. -/

/-- The position of a reference after each of the list got its place: the last mention counts. -/
def assigned (refs : List Ref) (ref : Ref) (old : Int) : Int :=
  refs.zipIdx.foldl (fun p entry => if ref = entry.1 then (entry.2 : Int) + 1 else p) old

theorem assigned_snoc (refs : List Ref) (last ref : Ref) (old : Int) :
    assigned (refs ++ [last]) ref old =
      if ref = last then (refs.length : Int) + 1 else assigned refs ref old := by
  rw [assigned, List.zipIdx_append, List.foldl_append, Nat.zero_add]
  rfl

theorem assigned_of_not_mem (absent : ref ∉ refs) (old : Int) : assigned refs ref old = old := by
  induction refs using List.reverseRecOn with
  | nil => rfl
  | append_singleton refs last ih =>
    rw [List.mem_append, List.mem_singleton, not_or] at absent
    rw [assigned_snoc, if_neg absent.2, ih absent.1]

theorem assigned_of_mem (member : ref ∈ refs) (old : Int) :
    ∃ i : Nat, refs[i]? = some ref ∧ assigned refs ref old = (i : Int) + 1 := by
  induction refs using List.reverseRecOn with
  | nil => cases member
  | append_singleton refs last ih =>
    rw [assigned_snoc]
    split
    · rename_i same
      refine ⟨refs.length, ?_, rfl⟩
      rw [List.getElem?_append_right (Nat.le_refl _), Nat.sub_self, same]
      rfl
    · rename_i other
      obtain ⟨i, at_, found⟩ := ih ((List.mem_append.mp member).resolve_right fun same =>
        other (List.mem_singleton.mp same))
      have below : i < refs.length := (List.getElem?_eq_some_iff.mp at_).1
      exact ⟨i, (List.getElem?_append_left below).trans at_, found⟩

theorem assignPositions_entries (refs : List Ref) :
    (assignPositions playlistId refs t).entries playlistId =
      (t.entries playlistId).map fun entry => (entry.1, assigned refs entry.1 entry.2) := by
  unfold assignPositions assigned
  generalize refs.zipIdx = places
  induction places generalizing t with
  | nil => exact (List.map_id _).symm
  | cons place rest ih =>
    rw [List.foldl_cons, ih, Tables.entries_reposition_key, List.map_map]
    rfl

theorem reorderPlaylistItems_numbered (complete : ∀ ref ∈ t.refs playlistId, ref ∈ refs)
    (early : ∀ ref ∈ t.refs playlistId, ref ∉ refs.drop (t.refs playlistId).length) :
    (reorderPlaylistItems playlistId refs t).2.Numbered playlistId := by
  have place (entry : Entry) (member : entry ∈ t.entries playlistId) :
      ∃ i : Nat, refs[i]? = some entry.1 ∧ i < (t.refs playlistId).length ∧
        assigned refs entry.1 entry.2 = (i : Int) + 1 := by
    have its : entry.1 ∈ t.refs playlistId := List.mem_map_of_mem member
    obtain ⟨i, at_, found⟩ := assigned_of_mem (complete _ its) entry.2
    refine ⟨i, at_, Nat.lt_of_not_le fun late => early _ its ?_, found⟩
    have later : (refs.drop (t.refs playlistId).length)[i - (t.refs playlistId).length]? =
        some entry.1 := by
      rw [List.getElem?_drop, Nat.add_sub_cancel' late, at_]
    exact List.mem_of_getElem? later
  change (assignPositions playlistId refs t).Numbered playlistId
  rw [Tables.Numbered, Tables.positions, assignPositions_entries, List.map_map, ranked_iff,
    List.length_map]
  constructor
  · refine List.Nodup.map_on (fun a memberA b memberB same => ?_) (Tables.refs_nodup t _).of_map
    obtain ⟨i, atI, -, foundI⟩ := place a memberA
    obtain ⟨j, atJ, -, foundJ⟩ := place b memberB
    simp only [Function.comp_apply, foundI, foundJ] at same
    obtain rfl : i = j := by omega
    exact List.inj_on_of_nodup_map (Tables.refs_nodup t _) memberA memberB
      (Option.some.inj (atI.symm.trans atJ))
  · intro p member
    obtain ⟨entry, present, rfl⟩ := List.mem_map.mp member
    obtain ⟨i, -, below, found⟩ := place entry present
    rw [Tables.refs, List.length_map] at below
    simp only [Function.comp_apply, found]
    omega

def songItems (t : Tables) (playlistId : String) : Nat :=
  ((t.refs playlistId).filter fun ref => ref.1 = .song).length

/-- The moved songs are different songs of the playlist, the others are found in the library, and
no item of another type stands in front of a song. -/
structure SongsFirst (playlistId : String) (songIds : List String) (t : Tables) : Prop where
  distinct : songIds.Nodup
  present : ∀ songId ∈ songIds, (TaggableEntity.song, songId) ∈ t.refs playlistId
  found : ∀ ref ∈ t.refs playlistId, ref.1 = .song → ref.2 ∈ songIds ∨
    (t.hasPlaylist playlistId = true ∧ (t.songz.get ref.2).isSome = true)
  inFront : ∀ entry ∈ t.entries playlistId, entry.1.1 ≠ .song →
    (songItems t playlistId : Int) < entry.2

theorem mem_listedSongs {songId : String} : songId ∈ t.listedSongs playlistId ↔
    t.hasPlaylist playlistId = true ∧ (t.songz.get songId).isSome = true ∧
      (TaggableEntity.song, songId) ∈ t.refs playlistId := by
  unfold Tables.listedSongs
  split
  · rename_i there
    simp only [List.mem_map, (List.mergeSort_perm _ _).mem_iff, List.mem_filter, Bool.and_eq_true,
      decide_eq_true_eq, there, true_and, Tables.refs, Tables.entries, List.map_map]
    constructor
    · rintro ⟨item, ⟨own, type, known⟩, rfl⟩
      exact ⟨known, item, own, Prod.ext type rfl⟩
    · rintro ⟨known, item, own, same⟩
      obtain ⟨type, rfl⟩ := Prod.mk.inj same
      exact ⟨item, ⟨own, type, known⟩, rfl⟩
  · rename_i missing
    simp [missing]

theorem listedSongs_nodup (t : Tables) (playlistId : String) : (t.listedSongs playlistId).Nodup := by
  unfold Tables.listedSongs
  split
  · have listed {item : PlaylistItem} (member : item ∈ ((t.items playlistId).filter fun item =>
        item.entityType = .song && (t.songz.get item.entityId).isSome).mergeSort
          fun a b => a.position ≤ b.position) :
        item ∈ t.playlistItemz ∧ item.playlistId = playlistId ∧ item.entityType = .song := by
      obtain ⟨its, matched⟩ := List.mem_filter.mp ((List.mergeSort_perm _ _).mem_iff.mp member)
      obtain ⟨present, own⟩ := (Table.mem_select ..).mp its
      exact ⟨present, of_decide_eq_true own, of_decide_eq_true ((Bool.and_eq_true ..).mp matched).1⟩
    refine List.Nodup.map_on (fun a memberA b memberB same => ?_) ?_
    · obtain ⟨presentA, ownA, typeA⟩ := listed memberA
      obtain ⟨presentB, ownB, typeB⟩ := listed memberB
      refine t.playlistItemz.eq_of_key_eq presentA presentB ?_
      rw [PlaylistItem.key, PlaylistItem.key, PlaylistItem.ref, PlaylistItem.ref, ownA, ownB, typeA,
        typeB, same]
    · refine (List.mergeSort_perm _ _).nodup_iff.mpr ?_
      exact (t.playlistItemz.unique.of_map.filter _).filter _
  · exact List.nodup_nil

theorem newOrder_perm (allSongs songIds : List String) (newPosition : Int) :
    (newOrder allSongs songIds newPosition).Perm
      ((allSongs.filter fun songId => songId ∉ songIds) ++ songIds) := by
  unfold newOrder
  rw [List.append_assoc]
  refine (List.perm_append_comm.append_left _).trans ?_
  rw [← List.append_assoc, List.take_append_drop]

theorem newOrder_length (first : SongsFirst playlistId songIds t)
    (newPosition : Int) : (newOrder (t.listedSongs playlistId) songIds newPosition).length ≤
      songItems t playlistId := by
  rw [(newOrder_perm ..).length_eq]
  have distinct : ((t.listedSongs playlistId).filter (fun songId => songId ∉ songIds) ++
      songIds).Nodup := by
    refine ((listedSongs_nodup t playlistId).filter _).append first.distinct fun songId old new => ?_
    exact of_decide_eq_true (List.mem_filter.mp old).2 new
  have refs := distinct.map (f := Prod.mk TaggableEntity.song) fun a b same => (Prod.mk.inj same).2
  have inside (ref : Ref) (member : ref ∈ ((t.listedSongs playlistId).filter
      (fun songId => songId ∉ songIds) ++ songIds).map (Prod.mk TaggableEntity.song)) :
      ref ∈ (t.refs playlistId).filter fun ref => ref.1 = .song := by
    obtain ⟨songId, listed, rfl⟩ := List.mem_map.mp member
    refine List.mem_filter.mpr ⟨?_, decide_eq_true rfl⟩
    obtain old | new := List.mem_append.mp listed
    · exact (mem_listedSongs.mp (List.mem_filter.mp old).1).2.2
    · exact first.present songId new
  have length := (List.subperm_of_subset refs inside).length_le
  rwa [List.length_map] at length

theorem mem_newOrder (first : SongsFirst playlistId songIds t)
    (newPosition : Int) (its : ref ∈ t.refs playlistId) (song : ref.1 = .song) :
    ref.2 ∈ newOrder (t.listedSongs playlistId) songIds newPosition := by
  rw [(newOrder_perm ..).mem_iff, List.mem_append]
  by_cases moved : ref.2 ∈ songIds
  · exact .inr moved
  · obtain new | ⟨there, known⟩ := first.found ref its song
    · exact .inr new
    · have same : (TaggableEntity.song, ref.2) = ref := Prod.ext song.symm rfl
      exact .inl (List.mem_filter.mpr ⟨mem_listedSongs.mpr ⟨there, known, same ▸ its⟩,
        decide_eq_true moved⟩)

def movedTo (order : List String) (entry : Entry) : Int :=
  assigned (order.map (Prod.mk .song)) entry.1 (if entry.1.1 = .song then -entry.2 else entry.2)

theorem updateSongsPosition_entries (songIds : List String) (newPosition : Int) :
    (updateSongsPosition playlistId songIds newPosition t).2.entries playlistId =
      (t.entries playlistId).map fun entry =>
        (entry.1, movedTo (newOrder (t.listedSongs playlistId) songIds newPosition) entry) := by
  change (assignPositions playlistId _ _).entries playlistId = _
  rw [assignPositions_entries, Tables.entries_reposition (q := fun entry => entry.1.1 = .song)
    fun item own => ?_, List.map_map]
  · refine List.map_congr_left fun entry _ => ?_
    simp only [Function.comp_apply, movedTo, decide_eq_true_eq]
  · simp only [own, decide_true, Bool.true_and]
    rfl

theorem movedTo_song {order : List String} {entry : Entry} (song : entry.1.1 = .song)
    (member : entry.1.2 ∈ order) :
    ∃ i : Nat, order[i]? = some entry.1.2 ∧ movedTo order entry = (i : Int) + 1 := by
  have same : (TaggableEntity.song, entry.1.2) = entry.1 := Prod.ext song.symm rfl
  have listed : entry.1 ∈ order.map (Prod.mk TaggableEntity.song) :=
    List.mem_map.mpr ⟨entry.1.2, member, same⟩
  obtain ⟨i, at_, found⟩ := assigned_of_mem listed (if entry.1.1 = .song then -entry.2 else entry.2)
  rw [List.getElem?_map] at at_
  obtain ⟨songId, at_, named⟩ := Option.map_eq_some_iff.mp at_
  rw [← named]
  exact ⟨i, at_, found⟩

theorem movedTo_other {order : List String} {entry : Entry} (other : entry.1.1 ≠ .song) :
    movedTo order entry = entry.2 := by
  rw [movedTo, if_neg other, assigned_of_not_mem fun listed => ?_]
  obtain ⟨songId, -, named⟩ := List.mem_map.mp listed
  exact other (named ▸ rfl)

theorem updateSongsPosition_numbered {newPosition : Int}
    (numbered : t.Numbered playlistId) (first : SongsFirst playlistId songIds t) :
    (updateSongsPosition playlistId songIds newPosition t).2.Numbered playlistId := by
  obtain ⟨distinct, within⟩ := ranked_iff.mp numbered
  have length := newOrder_length first newPosition
  have fewer : songItems t playlistId ≤ (t.entries playlistId).length := by
    have filtered := List.length_filter_le (fun ref : Ref => ref.1 = .song) (t.refs playlistId)
    rwa [length_refs, Tables.length_positions] at filtered
  have placed (entry : Entry) (member : entry ∈ t.entries playlistId) (song : entry.1.1 = .song) :=
    movedTo_song song (mem_newOrder first newPosition (List.mem_map_of_mem member) song)
  rw [Tables.Numbered, Tables.positions, updateSongsPosition_entries, List.map_map, ranked_iff,
    List.length_map]
  generalize newOrder (t.listedSongs playlistId) songIds newPosition = order at length placed ⊢
  -- A song is at most at the number of songs, and every other item behind that.
  have bounds (entry : Entry) (member : entry ∈ t.entries playlistId) (song : entry.1.1 = .song) :
      0 < movedTo order entry ∧ movedTo order entry ≤ songItems t playlistId := by
    obtain ⟨i, at_, found⟩ := placed entry member song
    have below := (List.getElem?_eq_some_iff.mp at_).1
    omega
  constructor
  · refine List.Nodup.map_on (fun a memberA b memberB same => ?_) (Tables.refs_nodup t _).of_map
    simp only [Function.comp_apply] at same
    by_cases songA : a.1.1 = .song
    · by_cases songB : b.1.1 = .song
      · obtain ⟨i, atI, foundI⟩ := placed a memberA songA
        obtain ⟨j, atJ, foundJ⟩ := placed b memberB songB
        obtain rfl : i = j := by omega
        have ids : a.1.2 = b.1.2 := Option.some.inj (atI.symm.trans atJ)
        exact List.inj_on_of_nodup_map (Tables.refs_nodup t _) memberA memberB
          (Prod.ext (songA.trans songB.symm) ids)
      · have behind := first.inFront b memberB songB
        have before := bounds a memberA songA
        rw [movedTo_other songB] at same
        omega
    · by_cases songB : b.1.1 = .song
      · have behind := first.inFront a memberA songA
        have before := bounds b memberB songB
        rw [movedTo_other songA] at same
        omega
      · rw [movedTo_other songA, movedTo_other songB] at same
        exact List.inj_on_of_nodup_map distinct memberA memberB same
  · intro p member
    obtain ⟨entry, present, rfl⟩ := List.mem_map.mp member
    simp only [Function.comp_apply]
    by_cases song : entry.1.1 = .song
    · have before := bounds entry present song
      omega
    · have old := within entry.2 (List.mem_map_of_mem present)
      rw [movedTo_other song]
      rwa [Tables.length_positions] at old

theorem addPlaylistItem_numbered {position : Option Int} (numbered : t.Numbered playlistId)
    (last : position.getD 0 = 0 ∨ position.getD 0 = (t.items playlistId).length + 1 ∨
      ref ∈ t.refs playlistId ∨ (t.playlistz.get playlistId).isSome = false) :
    (addPlaylistItem playlistId ref position addedBy t).2.Numbered playlistId := by
  unfold addPlaylistItem
  split
  · exact numbered
  · exact numbered
  · rename_i t' done
    have behind : position.getD 0 = 0 ∨ position.getD 0 = (t.items playlistId).length + 1 := by
      obtain zero | next | taken | missing := last
      · exact .inl zero
      · exact .inr next
      · exact absurd taken (Tables.insertItem_ok done rfl).2.2
      · unfold Tables.insertItem at done
        split at done
        · cases done
        · rw [missing] at done
          cases done
    have kept := Tables.insertItem_numbered done rfl numbered behind
    split
    · exact kept
    · exact kept

theorem addSongsToPlaylist_numbered (songIds : List String) (numbered : t.Numbered playlistId) :
    (addSongsToPlaylist playlistId songIds t).2.Numbered playlistId := by
  unfold addSongsToPlaylist
  split
  · dsimp only
    split
    · exact numbered
    · exact addSongs_numbered numbered
  · exact numbered

theorem removeSongsFromPlaylist_numbered (songIds : List String)
    (numbered : t.Numbered playlistId) :
    (removeSongsFromPlaylist playlistId songIds t).2.Numbered playlistId := by
  unfold removeSongsFromPlaylist
  split
  · have kept := removeAll_numbered (songIds.map (Prod.mk TaggableEntity.song)) numbered
    rwa [List.foldl_map] at kept
  · exact numbered

end Operations

section Runs

variable (playlistId : String)

def Complete : PlaylistOp → Tables → Prop
  | .reorder orderedRefs, t => ∀ ref ∈ t.refs playlistId, ref ∈ orderedRefs
  | _, _ => True

/-- The explicit positions of an operation go on where the items in place end, and what it leaves
in place stands in front of nothing that it numbers. -/
def Orderly : PlaylistOp → Tables → Prop
  | .setSongs songs, t => t.hasPlaylist playlistId = true → Continues playlistId songs t
  | .moveSongs songIds _, t => SongsFirst playlistId songIds t
  | .setItems orderedRefs _, _ => RepeatsLast orderedRefs
  | .addItem ref position _, t => position.getD 0 = 0 ∨
      position.getD 0 = (t.items playlistId).length + 1 ∨ ref ∈ t.refs playlistId ∨
      (t.playlistz.get playlistId).isSome = false
  | .reorder orderedRefs, t => (∀ ref ∈ t.refs playlistId, ref ∈ orderedRefs) ∧
      ∀ ref ∈ t.refs playlistId, ref ∉ orderedRefs.drop (t.refs playlistId).length
  | _, _ => True

theorem step_numbered (op : PlaylistOp) (t : Tables) (orderly : Orderly playlistId op t)
    (numbered : t.Numbered playlistId) : (op.step playlistId t).Numbered playlistId := by
  cases op with
  | addSongs songIds => exact addSongsToPlaylist_numbered songIds numbered
  | removeSongs songIds => exact removeSongsFromPlaylist_numbered songIds numbered
  | setSongs songs => exact setPlaylistSongs_numbered numbered orderly
  | moveSongs songIds newPosition => exact updateSongsPosition_numbered numbered orderly
  | setItems orderedRefs addedBy => exact setPlaylistItems_numbered orderly
  | addItem ref position addedBy => exact addPlaylistItem_numbered numbered orderly
  | addItems refs addedBy => exact addPlaylistItems_numbered refs addedBy numbered
  | removeItem ref => exact Tables.deleteItem_numbered ref numbered
  | removeItems refs => exact removeAll_numbered refs numbered
  | reorder orderedRefs => exact reorderPlaylistItems_numbered orderly.1 orderly.2

/-- In a run of orderly operations on a playlist that was empty, its items are numbered after each
of them. -/
theorem numbered_of_run (t : Tables) (empty : t.items playlistId = []) (ops taken : List PlaylistOp)
    (orderly : Meets (PlaylistOp.step playlistId) (Orderly playlistId) ops t)
    (initial : taken <+: ops) :
    (runAll (PlaylistOp.step playlistId) taken t).Numbered playlistId := by
  refine (orderly.of_prefix initial).keeps (step_numbered playlistId) ?_
  rw [Tables.Numbered, Tables.positions, Tables.entries, empty]
  exact ranked_nil

end Runs

/-! A playlist of two songs and a video. -/

theorem nodup_songs : ([⟨"a", none⟩, ⟨"b", none⟩].map Song.id).Nodup := by decide

def mixTables : Tables where
  playlistz := ⟨[⟨"mix", none⟩], by decide⟩
  songz := ⟨[⟨"a", none⟩, ⟨"b", none⟩], nodup_songs⟩
  playlistItemz := ∅

def mixOps : List PlaylistOp := [.addSongs ["a", "b"], .addItem (.video, "v") none none,
  .removeItem (.song, "a"), .setItems [(.song, "b"), (.song, "a"), (.video, "v"), (.song, "b")] none,
  .reorder [(.song, "a"), (.song, "b"), (.video, "v")]]

theorem mixOps_orderly :
    Meets (PlaylistOp.step "mix") (Orderly "mix") mixOps mixTables := by
  refine ⟨trivial, .inl rfl, trivial, ?_, ⟨?_, ?_⟩, trivial⟩
  · change List.Nodup _
    decide
  · decide
  · decide

theorem mixOps_numbered :
    (runAll (PlaylistOp.step "mix") mixOps mixTables).entries "mix" =
        [((.song, "b"), 2), ((.song, "a"), 1), ((.video, "v"), 3)] ∧
      (runAll (PlaylistOp.step "mix") mixOps mixTables).Numbered "mix" :=
  ⟨by decide, numbered_of_run "mix" mixTables (by decide) mixOps mixOps mixOps_orderly
    (List.prefix_refl _)⟩

/-- A song that is listed twice leaves a gap behind its first mention. -/
theorem repeated_song_leaves_gap : ¬∀ (playlistId : String) (t : Tables) (ops : List PlaylistOp),
    t.items playlistId = [] →
    Meets (PlaylistOp.step playlistId) (Complete playlistId) ops t →
    (runAll (PlaylistOp.step playlistId) ops t).Numbered playlistId := by
  intro claimed
  have numbered := claimed "mix" mixTables
    [.setItems [(.song, "a"), (.song, "a"), (.song, "b")] none] (by decide) ⟨trivial, trivial⟩
  have positions : (runAll (PlaylistOp.step "mix")
      [.setItems [(.song, "a"), (.song, "a"), (.song, "b")] none] mixTables).positions "mix" =
        [1, 3] := by decide
  rw [Tables.Numbered, positions] at numbered
  exact absurd (ranked_iff.mp numbered).2 (by decide)

end Tomb.Grimoire.Playlists
