import Mathlib.Algebra.Group.Int.Defs
import Mathlib.Data.List.Sort
import Mathlib.Logic.Function.Iterate
import Tomb.Lib.Hashing

/-! The index behind album and series mode: the ordered items of each group, and the place of each
item. The two maps are built apart, from groups that are visited in whatever order a hash map hands
them out. -/
namespace Tomb.Grimoire.Radio
open Tomb.Lib

structure CandidateMeta where
  songId : String
  albumId : Option String
  (discNumber trackNumber : Int)

structure CandidateVideoMeta where
  videoId : String
  seriesId : Option String
  (seasonNumber episodeNumber : Option Int)

abbrev Grouped (ρ : Type) : Type := Sigma fun _ : String => List ρ

structure GroupIndex where
  groups : HashMap String (List String)
  positions : HashMap String (String × Nat)

/-- What the two kinds of rows differ in: the group of a row, its id, and the order in a group. -/
structure Grouping (ρ : Type) where
  (key id : ρ → String)
  cmp : ρ → ρ → Ordering

namespace Grouping

variable {ρ : Type} (g : Grouping ρ)

def ordered (rows : List ρ) : List ρ := rows.insertionSort fun a b => (g.cmp a b).isLE = true

def tracks (rows : List ρ) : List String := (g.ordered rows).map g.id

@[grind =] def places (group : Grouped ρ) : List (String × (String × Nat)) :=
  (g.tracks group.2).zipIdx.map fun (id, idx) => (id, (group.1, idx))

def add (index : GroupIndex) (group : Grouped ρ) : GroupIndex where
  groups := AList.insert group.1 (g.tracks group.2) index.groups
  positions := index.positions.insertAll (g.places group)

def buildIndex (visits : VisitOrder (Grouped ρ)) (rows : List ρ) :
    GroupIndex :=
  (visits.arrange (HashMap.groupRows g.key rows).entries).foldl g.add ⟨∅, ∅⟩

end Grouping

def albumGrouping : Grouping CandidateMeta where
  key row := row.albumId.getD ("__single__:" ++ row.songId)
  id := CandidateMeta.songId
  cmp := compareLex (compareOn CandidateMeta.discNumber)
    (compareLex (compareOn CandidateMeta.trackNumber) (compareOn CandidateMeta.songId))

def unnumbered : Int := 2 ^ 63 - 1

def CandidateVideoMeta.season (row : CandidateVideoMeta) : Int :=
  row.seasonNumber.getD unnumbered

def CandidateVideoMeta.episode (row : CandidateVideoMeta) : Int :=
  row.episodeNumber.getD unnumbered

def seriesGrouping : Grouping CandidateVideoMeta where
  key row := row.seriesId.getD ("__single__:" ++ row.videoId)
  id := CandidateVideoMeta.videoId
  cmp := compareLex (compareOn CandidateVideoMeta.season)
    (compareLex (compareOn CandidateVideoMeta.episode) (compareOn CandidateVideoMeta.videoId))

def buildAlbumIndex (visits : VisitOrder (Grouped CandidateMeta))
    (rows : List CandidateMeta) : GroupIndex :=
  albumGrouping.buildIndex visits rows

def buildSeriesIndex (visits : VisitOrder (Grouped CandidateVideoMeta))
    (rows : List CandidateVideoMeta) : GroupIndex :=
  seriesGrouping.buildIndex visits rows

namespace GroupIndex

def nextTrackInSameAlbum (index : GroupIndex) (last : Option String) : Option String := do
  let last ← last
  let (albumKey, pos) ← index.positions.lookup last
  let albumTracks ← index.groups.lookup albumKey
  if pos + 1 < albumTracks.length then albumTracks[pos + 1]? else none

def candidateAlbumsForNewPick (index : GroupIndex) (visits : VisitOrder String)
    (last : Option String) : List String :=
  let albumKeys := visits.arrange index.groups.keys
  match last.bind index.positions.lookup with
  | some (lastAlbumKey, _) =>
    if 1 < albumKeys.length then albumKeys.filter (· ≠ lastAlbumKey) else albumKeys
  | none => albumKeys

/-- The two maps say the same: an item is at the place that is noted for it, and nowhere else. -/
def Agree (index : GroupIndex) : Prop :=
  ∀ id key pos, index.positions.lookup id = some (key, pos) ↔
    ∃ tracks, index.groups.lookup key = some tracks ∧ tracks[pos]? = some id

variable {index : GroupIndex}

variable {tracks : List String}

theorem next_of_place (agree : index.Agree) {key : String}
    (group : index.groups.lookup key = some tracks) {pos : Nat} {id : String}
    (place : tracks[pos]? = some id) : index.nextTrackInSameAlbum (some id) = tracks[pos + 1]? := by
  have found := (agree id key pos).mpr ⟨tracks, group, place⟩
  simp only [nextTrackInSameAlbum, bind, Option.bind, found, group]
  split
  · rfl
  · rename_i short
    exact (List.getElem?_eq_none (Nat.le_of_not_lt short)).symm

theorem next_iterate (agree : index.Agree) {key : String}
    (group : index.groups.lookup key = some tracks) (n : Nat) :
    index.nextTrackInSameAlbum^[n] tracks.head? = tracks[n]? := by
  induction n with
  | zero => exact List.head?_eq_getElem?
  | succ n ih =>
    rw [Function.iterate_succ_apply', ih]
    cases place : tracks[n]? with
    | some id => exact next_of_place agree group place
    | none =>
      have short : tracks.length ≤ n := List.getElem?_eq_none_iff.mp place
      rw [List.getElem?_eq_none (Nat.le_succ_of_le short)]
      rfl

theorem mem_candidateAlbums (agree : index.Agree) (visits : VisitOrder String) {key : String} (group : index.groups.lookup key = some tracks) {last : String}
    (played : last ∈ tracks) (other : String) :
    other ∈ index.candidateAlbumsForNewPick visits (some last) ↔
      other ∈ index.groups ∧ (other = key → ∀ another ∈ index.groups, another = key) := by
  obtain ⟨pos, place⟩ := List.mem_iff_getElem?.mp played
  have found := (agree last key pos).mpr ⟨tracks, group, place⟩
  have isKey : key ∈ index.groups := AList.lookup_isSome.mp (group ▸ rfl)
  have arranged := visits.perm index.groups.keys
  have distinct : (visits.arrange index.groups.keys).Nodup :=
    arranged.nodup_iff.mpr index.groups.keys_nodup
  have member : ∀ {k}, k ∈ visits.arrange index.groups.keys ↔ k ∈ index.groups :=
    arranged.mem_iff.trans AList.mem_keys.symm
  simp only [candidateAlbumsForNewPick, Option.bind_some, found]
  split
  · rename_i several
    have notOnly : visits.arrange index.groups.keys ≠ [key] := by
      intro only
      simp [only] at several
    obtain none | ⟨k, inside, differs⟩ := (distinct.ne_singleton_iff key).mp notOnly
    · simp [none] at several
    rw [member] at inside
    rw [List.mem_filter, member, decide_eq_true_eq]
    constructor
    · rintro ⟨otherInside, notKey⟩
      exact ⟨otherInside, fun same => absurd same notKey⟩
    · rintro ⟨otherInside, alone⟩
      exact ⟨otherInside, fun same => differs (alone same k inside)⟩
  · rename_i few
    rw [member]
    refine ⟨fun inside => ⟨inside, fun _ another anotherInside => ?_⟩, And.left⟩
    obtain ⟨only, eq⟩ := List.length_eq_one_iff.mp (Nat.le_antisymm (Nat.le_of_not_lt few)
      (List.length_pos_of_mem (member.mpr isKey)))
    rw [← member, eq, List.mem_singleton] at anotherInside isKey
    rw [anotherInside, isKey]

end GroupIndex

namespace Grouping

variable {ρ : Type} (g : Grouping ρ)

theorem tracks_perm (rows : List ρ) : (g.tracks rows).Perm (rows.map g.id) :=
  (List.perm_insertionSort _ rows).map g.id

theorem tracks_eq_nil {rows : List ρ} : g.tracks rows = [] ↔ rows = [] := by
  rw [← List.length_eq_zero_iff, (g.tracks_perm rows).length_eq, List.length_map,
    List.length_eq_zero_iff]

theorem places_ids (group : Grouped ρ) :
    (g.places group).map Prod.fst = g.tracks group.2 := by
  rw [places, List.map_map]
  exact List.zipIdx_map_fst 0 (g.tracks group.2)

theorem mem_places (group : Grouped ρ) (id key : String) (pos : Nat) :
    (id, (key, pos)) ∈ g.places group ↔ group.1 = key ∧ (g.tracks group.2)[pos]? = some id := by
  simp only [places, List.mem_map, Prod.mk.injEq, Prod.exists, List.mem_zipIdx_iff_getElem?]
  constructor
  · rintro ⟨id, pos, place, rfl, rfl, rfl⟩
    exact ⟨rfl, place⟩
  · rintro ⟨rfl, place⟩
    exact ⟨id, pos, place, rfl, rfl, rfl⟩

theorem foldl_add (entries : List (Grouped ρ)) (index : GroupIndex) :
    entries.foldl g.add index =
      ⟨index.groups.insertAll (entries.map fun group => (group.1, g.tracks group.2)),
        index.positions.insertAll (entries.flatMap g.places)⟩ := by
  induction entries generalizing index with
  | nil => rfl
  | cons group rest ih =>
    rw [List.foldl_cons, ih, List.flatMap_cons, HashMap.insertAll_append]
    rfl

variable {g} {rows : List ρ} {visits : VisitOrder (Grouped ρ)}

theorem mem_visited (group : Grouped ρ) :
    group ∈ visits.arrange (HashMap.groupRows g.key rows).entries ↔
      group.2 = rows.filter (g.key · = group.1) ∧ group.2 ≠ [] := by
  rw [(visits.perm _).mem_iff, ← HashMap.lookup_groupRows, AList.mem_lookup_iff.symm]
  rfl

theorem visited_keys_nodup :
    (visits.arrange (HashMap.groupRows g.key rows).entries).NodupKeys :=
  (List.perm_nodupKeys (visits.perm _)).mpr (HashMap.groupRows g.key rows).nodupKeys

theorem lookup_groups (key : String) (tracks : List String) :
    (g.buildIndex visits rows).groups.lookup key = some tracks ↔
      tracks = g.tracks (rows.filter (g.key · = key)) ∧ tracks ≠ [] := by
  have distinct : (visits.arrange (HashMap.groupRows g.key rows).entries).NodupKeys :=
    visited_keys_nodup
  rw [buildIndex, foldl_add, HashMap.lookup_insertAll_empty]
  · simp only [List.mem_map, mem_visited, Prod.mk.injEq]
    constructor
    · rintro ⟨⟨_, group⟩, ⟨held, some⟩, rfl, rfl⟩
      exact ⟨congrArg g.tracks held, fun none => some (g.tracks_eq_nil.mp none)⟩
    · rintro ⟨rfl, some⟩
      exact ⟨⟨key, _⟩, ⟨rfl, fun none => some (g.tracks_eq_nil.mpr none)⟩, rfl, rfl⟩
  · rw [List.map_map]
    exact distinct

theorem mem_tracks (rows : List ρ) (id : String) :
    id ∈ g.tracks rows ↔ ∃ row ∈ rows, g.id row = id := by
  rw [(g.tracks_perm rows).mem_iff, List.mem_map]

theorem nodup_flatMap_groups (distinct : (rows.map g.id).Nodup)
    {entries : List (Grouped String)} (keys : entries.NodupKeys)
    (groups : ∀ group ∈ entries, group.2 = g.tracks (rows.filter (g.key · = group.1))) :
    (entries.flatMap Sigma.snd).Nodup := by
  refine List.nodup_flatMap.mpr ⟨fun group inside => ?_, ?_⟩
  · rw [groups group inside, (g.tracks_perm _).nodup_iff]
    exact distinct.sublist (List.filter_sublist.map g.id)
  · refine (List.nodupKeys_iff_pairwise.mp keys).imp_of_mem ?_
    intro group group' inside inside' differ id first second
    rw [groups group inside, mem_tracks] at first
    rw [groups group' inside', mem_tracks] at second
    obtain ⟨row, rowIn, rfl⟩ := first
    obtain ⟨row', rowIn', same⟩ := second
    obtain ⟨member, key⟩ := List.mem_filter.mp rowIn
    obtain ⟨member', key'⟩ := List.mem_filter.mp rowIn'
    obtain rfl := List.inj_on_of_nodup_map distinct member' member same
    exact differ ((of_decide_eq_true key).symm.trans (of_decide_eq_true key'))

theorem buildIndex_agree (distinct : (rows.map g.id).Nodup) :
    (g.buildIndex visits rows).Agree := by
  intro id key pos
  have ids : ((visits.arrange (HashMap.groupRows g.key rows).entries).flatMap
      fun group => g.tracks group.2).Nodup := by
    let entries : List (Grouped String) :=
      (visits.arrange (HashMap.groupRows g.key rows).entries).map
        fun group => ⟨group.1, g.tracks group.2⟩
    have keys : entries.NodupKeys := by
      rw [List.NodupKeys, List.keys, List.map_map]
      exact visited_keys_nodup
    have nodup := nodup_flatMap_groups distinct keys ?_
    · rwa [List.flatMap_map] at nodup
    · intro group inside
      obtain ⟨_, visited, rfl⟩ := List.mem_map.mp inside
      exact congrArg g.tracks ((mem_visited _).mp visited).1
  have places : (g.buildIndex visits rows).positions.lookup id = some (key, pos) ↔
      ∃ group ∈ visits.arrange (HashMap.groupRows g.key rows).entries,
        group.1 = key ∧ (g.tracks group.2)[pos]? = some id := by
    rw [buildIndex, foldl_add, HashMap.lookup_insertAll_empty]
    · simp only [List.mem_flatMap, mem_places]
    · rwa [List.map_flatMap, funext g.places_ids]
  rw [places]
  simp only [mem_visited, lookup_groups]
  constructor
  · rintro ⟨group, ⟨held, some⟩, rfl, place⟩
    rw [held] at place some
    exact ⟨_, ⟨rfl, fun none => some (g.tracks_eq_nil.mp none)⟩, place⟩
  · rintro ⟨_, ⟨rfl, some⟩, place⟩
    exact ⟨⟨key, _⟩, ⟨rfl, fun none => some (g.tracks_eq_nil.mpr none)⟩, rfl, place⟩

theorem buildIndex_partition (distinct : (rows.map g.id).Nodup) :
    ((g.buildIndex visits rows).groups.entries.flatMap Sigma.snd).Perm (rows.map g.id) := by
  have held : ∀ group : Grouped String,
      group ∈ (g.buildIndex visits rows).groups.entries ↔
        group.2 = g.tracks (rows.filter (g.key · = group.1)) ∧ group.2 ≠ [] := by
    intro group
    rw [← lookup_groups, AList.mem_lookup_iff.symm]
    rfl
  have nodup := nodup_flatMap_groups distinct (g.buildIndex visits rows).groups.nodupKeys
    fun group inside => ((held group).mp inside).1
  refine (List.perm_ext_iff_of_nodup nodup distinct).mpr fun id => ?_
  simp only [List.mem_flatMap, held, List.mem_map]
  constructor
  · rintro ⟨group, ⟨tracks, -⟩, inside⟩
    obtain ⟨row, member, rfl⟩ := (mem_tracks _ id).mp (tracks ▸ inside)
    exact ⟨row, (List.mem_filter.mp member).1, rfl⟩
  · rintro ⟨row, member, rfl⟩
    have inside := (mem_tracks (g := g) (rows.filter (g.key · = g.key row)) (g.id row)).mpr
      ⟨row, List.mem_filter.mpr ⟨member, decide_eq_true rfl⟩, rfl⟩
    exact ⟨⟨g.key row, _⟩, ⟨rfl, List.ne_nil_of_mem inside⟩, inside⟩

theorem ordered_strict [Std.TransCmp g.cmp] (told : ∀ a b, g.cmp a b = .eq → g.id a = g.id b)
    (distinct : (rows.map g.id).Nodup) :
    (g.ordered rows).Pairwise fun a b => g.cmp a b = .lt := by
  have sorted : (g.ordered rows).Pairwise fun a b => (g.cmp a b).isLE = true :=
    haveI : IsTrans ρ fun a b => (g.cmp a b).isLE = true := ⟨fun _ _ _ => Std.TransCmp.isLE_trans⟩
    haveI : Std.Total fun a b => (g.cmp a b).isLE = true := ⟨fun a b => by
      have swapped : g.cmp b a = (g.cmp a b).swap := Std.OrientedCmp.eq_swap
      rw [swapped]
      cases g.cmp a b <;> simp⟩
    List.pairwise_insertionSort _ rows
  have ids : ((g.ordered rows).map g.id).Nodup := (g.tracks_perm rows).nodup_iff.mpr distinct
  refine (sorted.and (List.pairwise_map.mp ids)).imp ?_
  rintro a b ⟨le, differ⟩
  cases order : g.cmp a b with
  | lt => rfl
  | eq => exact absurd (told a b order) differ
  | gt => rw [order] at le; cases le

/-- What a station needs of its index: the groups share the rows out, each is in order, a walk from
its first item on goes through all of it and ends, and what may be begun after it is another group,
if there is one. -/
structure PlaysWhole (g : Grouping ρ) (before : ρ → ρ → Prop) (rows : List ρ)
    (index : GroupIndex) : Prop where
  partition : (index.groups.entries.flatMap Sigma.snd).Perm (rows.map g.id)
  inOrder : ∀ key tracks, index.groups.lookup key = some tracks → ∃ group : List ρ,
    group.Perm (rows.filter (g.key · = key)) ∧ group.Pairwise before ∧ tracks = group.map g.id
  walk : ∀ key tracks, index.groups.lookup key = some tracks →
    tracks ≠ [] ∧ tracks.Nodup ∧ ∀ n, index.nextTrackInSameAlbum^[n] tracks.head? = tracks[n]?
  newPick : ∀ visits key tracks, index.groups.lookup key = some tracks → ∀ last ∈ tracks,
    ∀ other, other ∈ index.candidateAlbumsForNewPick visits (some last) ↔
      other ∈ index.groups ∧ (other = key → ∀ another ∈ index.groups, another = key)

theorem buildIndex_playsWhole [Std.TransCmp g.cmp] {before : ρ → ρ → Prop}
    (order : ∀ a b, g.cmp a b = .lt → before a b) (told : ∀ a b, g.cmp a b = .eq → g.id a = g.id b)
    (distinct : (rows.map g.id).Nodup) : g.PlaysWhole before rows (g.buildIndex visits rows) where
  partition := buildIndex_partition distinct
  inOrder key tracks group := by
    obtain ⟨rfl, -⟩ := (lookup_groups key tracks).mp group
    have inside := distinct.sublist ((List.filter_sublist (p := (g.key · = key))).map g.id)
    exact ⟨g.ordered (rows.filter (g.key · = key)), List.perm_insertionSort _ _,
      (ordered_strict told inside).imp fun lt => order _ _ lt, rfl⟩
  walk key tracks group := by
    obtain ⟨rfl, some⟩ := (lookup_groups key tracks).mp group
    refine ⟨some, (g.tracks_perm _).nodup_iff.mpr ?_,
      GroupIndex.next_iterate (buildIndex_agree distinct) group⟩
    exact distinct.sublist (List.filter_sublist.map g.id)
  newPick visits key tracks group last played other :=
    GroupIndex.mem_candidateAlbums (buildIndex_agree distinct) visits group played other

end Grouping

def CandidateMeta.Before (a b : CandidateMeta) : Prop :=
  a.discNumber < b.discNumber ∨ (a.discNumber = b.discNumber ∧
    (a.trackNumber < b.trackNumber ∨ (a.trackNumber = b.trackNumber ∧ a.songId < b.songId)))

def CandidateVideoMeta.Before (a b : CandidateVideoMeta) : Prop :=
  a.season < b.season ∨ (a.season = b.season ∧
    (a.episode < b.episode ∨ (a.episode = b.episode ∧ a.videoId < b.videoId)))

instance : Std.TransCmp albumGrouping.cmp :=
  inferInstanceAs (Std.TransCmp (compareLex (compareOn CandidateMeta.discNumber) _))

instance : Std.TransCmp seriesGrouping.cmp :=
  inferInstanceAs (Std.TransCmp (compareLex (compareOn CandidateVideoMeta.season) _))

theorem compare_ids (a b : String) : compare a b = .lt ↔ a < b := compareOfLessAndEq_eq_lt

theorem album_and_series_play_whole (songs : List CandidateMeta) (videos : List CandidateVideoMeta)
    (songsDistinct : (songs.map CandidateMeta.songId).Nodup)
    (videosDistinct : (videos.map CandidateVideoMeta.videoId).Nodup)
    (visits : VisitOrder (Grouped CandidateMeta))
    (visits' : VisitOrder (Grouped CandidateVideoMeta)) :
    albumGrouping.PlaysWhole CandidateMeta.Before songs (buildAlbumIndex visits songs) ∧
      seriesGrouping.PlaysWhole CandidateVideoMeta.Before videos
        (buildSeriesIndex visits' videos) := by
  constructor
  · refine Grouping.buildIndex_playsWhole ?_ ?_ songsDistinct
    · intro a b lt
      simpa [albumGrouping, compareLex, compareOn, Ordering.then_eq_lt, compare_lt_iff_lt,
        compare_ids, CandidateMeta.Before] using lt
    · intro a b eq
      simp only [albumGrouping, compareLex, compareOn, Ordering.then_eq_eq] at eq
      exact Std.LawfulEqOrd.eq_of_compare eq.2.2
  · refine Grouping.buildIndex_playsWhole ?_ ?_ videosDistinct
    · intro a b lt
      simpa [seriesGrouping, compareLex, compareOn, Ordering.then_eq_lt, compare_lt_iff_lt,
        compare_ids, CandidateVideoMeta.Before] using lt
    · intro a b eq
      simp only [seriesGrouping, compareLex, compareOn, Ordering.then_eq_eq] at eq
      exact Std.LawfulEqOrd.eq_of_compare eq.2.2

theorem two_albums_play_whole :
    albumGrouping.PlaysWhole CandidateMeta.Before
        [⟨"a2", some "A", 1, 2⟩, ⟨"b1", some "B", 1, 1⟩, ⟨"a1", some "A", 1, 1⟩]
        (buildAlbumIndex ⟨id, List.Perm.refl⟩
          [⟨"a2", some "A", 1, 2⟩, ⟨"b1", some "B", 1, 1⟩, ⟨"a1", some "A", 1, 1⟩]) ∧
      seriesGrouping.PlaysWhole CandidateVideoMeta.Before [⟨"v1", none, none, some 3⟩]
        (buildSeriesIndex ⟨id, List.Perm.refl⟩ [⟨"v1", none, none, some 3⟩]) :=
  album_and_series_play_whole _ _ (by decide) (by decide) _ _

end Tomb.Grimoire.Radio
