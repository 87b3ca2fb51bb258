import Tomb.Grimoire.Radio.Playlist

/-! When a station plays within its filters. An empty resolution is also what a station without
filters has, so filters that leave nothing bring the whole library back. -/
namespace Tomb.Grimoire.Radio
open Tomb.Lib

namespace Library

variable (lib : Library)

/-- What the filter rows of a domain ask for: an item that some row of every included type matches,
or any playable one where nothing is included, and that no excluding row matches. -/
structure Selects (kind : RadioItemKind) (rows : List FilterRow) (id : String) : Prop where
  some_ : rows ≠ []
  playable : (∀ row ∈ rows, row.mode = .exclude_) → id ∈ lib.allPlayableIds kind
  included : ∀ row ∈ rows, row.mode = .include_ → ∃ other ∈ rows, other.mode = .include_ ∧
    other.filterType = row.filterType ∧ id ∈ lib.clauseIds kind other
  excluded : ∀ row ∈ rows, row.mode = .exclude_ → id ∉ lib.clauseIds kind row

theorem mem_groupIds (kind : RadioItemKind) (rows : List FilterRow) (filterType : FilterType)
    (id : String) : id ∈ lib.groupIds kind rows filterType ↔
      ∃ row ∈ rows, row.filterType = filterType ∧ id ∈ lib.clauseIds kind row := by
  rw [groupIds, List.mem_flatMap]
  constructor
  · rintro ⟨row, member, matched⟩
    obtain ⟨there, same⟩ := List.mem_filter.mp member
    exact ⟨row, there, of_decide_eq_true same, matched⟩
  · rintro ⟨row, there, same, matched⟩
    exact ⟨row, List.mem_filter.mpr ⟨there, decide_eq_true same⟩, matched⟩

theorem mem_foldl_inter (kind : RadioItemKind) (rows : List FilterRow) (types : List FilterType)
    (acc : List String) (id : String) :
    id ∈ types.foldl (fun acc next => acc.filter (· ∈ lib.groupIds kind rows next)) acc ↔
      id ∈ acc ∧ ∀ next ∈ types, id ∈ lib.groupIds kind rows next := by
  induction types generalizing acc with
  | nil => simp
  | cons next types ih =>
    rw [List.foldl_cons, ih, List.mem_filter, decide_eq_true_eq, List.forall_mem_cons, and_assoc]

variable {kind : RadioItemKind}

theorem mem_includedIds {rows : List FilterRow} (some_ : rows ≠ [])
    (id : String) : id ∈ lib.includedIds kind rows ↔
      ∀ row ∈ rows, id ∈ lib.groupIds kind rows row.filterType := by
  have listed (next : FilterType) : next ∈ (rows.map FilterRow.filterType).dedup ↔
      ∃ row ∈ rows, row.filterType = next := List.mem_dedup.trans List.mem_map
  unfold includedIds
  split
  · rename_i none_
    obtain ⟨row, member⟩ := List.exists_mem_of_ne_nil rows some_
    have there := (listed row.filterType).mpr ⟨row, member, rfl⟩
    rw [none_] at there
    cases there
  · rename_i first rest types
    rw [mem_foldl_inter]
    have all : (id ∈ lib.groupIds kind rows first ∧
        ∀ next ∈ rest, id ∈ lib.groupIds kind rows next) ↔
        ∀ next ∈ (rows.map FilterRow.filterType).dedup, id ∈ lib.groupIds kind rows next := by
      rw [types, List.forall_mem_cons]
    rw [all]
    constructor
    · intro every row member
      exact every _ ((listed _).mpr ⟨row, member, rfl⟩)
    · intro every next member
      obtain ⟨row, there, rfl⟩ := (listed next).mp member
      exact every row there

theorem mem_foldl_exclude (kind : RadioItemKind) (excludes : List FilterRow) (result : List String)
    (id : String) :
    id ∈ excludes.foldl (fun result clause => result.filter (· ∉ lib.clauseIds kind clause)) result ↔
      id ∈ result ∧ ∀ row ∈ excludes, id ∉ lib.clauseIds kind row := by
  induction excludes generalizing result with
  | nil => simp
  | cons row excludes ih =>
    rw [List.foldl_cons, ih, List.mem_filter, decide_eq_true_eq, List.forall_mem_cons, and_assoc]

theorem mode_cases (row : FilterRow) : row.mode = .include_ ∨ row.mode = .exclude_ := by
  cases row.mode with
  | include_ => exact .inl rfl
  | exclude_ => exact .inr rfl

theorem mem_resolveDomain (kind : RadioItemKind) (rows : List FilterRow) (id : String) :
    id ∈ lib.resolveDomain kind rows ↔ lib.Selects kind rows id := by
  unfold resolveDomain
  split
  · rename_i none_
    rw [List.isEmpty_iff] at none_
    exact ⟨fun member => (nomatch member), fun selects => absurd none_ selects.some_⟩
  · rename_i some_
    rw [List.isEmpty_iff] at some_
    have modes (mode : FilterMode) (row : FilterRow) :
        row ∈ rows.filter (·.mode = mode) ↔ row ∈ rows ∧ row.mode = mode := by
      rw [List.mem_filter, decide_eq_true_eq]
    simp only [mem_foldl_exclude, modes, and_imp]
    by_cases none_ : (rows.filter (·.mode = .include_)).isEmpty = true
    · rw [if_pos none_]
      have only : ∀ row ∈ rows, row.mode = .exclude_ := by
        intro row member
        refine (mode_cases row).resolve_left fun includes => ?_
        have there := (modes .include_ row).mpr ⟨member, includes⟩
        rw [List.isEmpty_iff.mp none_] at there
        cases there
      constructor
      · rintro ⟨playable, excluded⟩
        refine ⟨some_, fun _ => playable, fun row member includes => ?_, excluded⟩
        rw [only row member] at includes
        cases includes
      · intro selects
        exact ⟨selects.playable only, selects.excluded⟩
    · rw [if_neg none_]
      rw [List.isEmpty_iff] at none_
      rw [mem_includedIds _ none_]
      simp only [mem_groupIds, modes, and_imp]
      constructor
      · rintro ⟨included, excluded⟩
        refine ⟨some_, fun only => ?_, fun row member includes => ?_, excluded⟩
        · obtain ⟨row, there⟩ := List.exists_mem_of_ne_nil _ none_
          obtain ⟨member, includes⟩ := (modes .include_ row).mp there
          rw [only row member] at includes
          cases includes
        · obtain ⟨other, ⟨there, mode⟩, same, matched⟩ := included row member includes
          exact ⟨other, there, mode, same, matched⟩
      · intro selects
        refine ⟨fun row member includes => ?_, selects.excluded⟩
        obtain ⟨other, there, mode, same, matched⟩ := selects.included row member includes
        exact ⟨other, ⟨there, mode⟩, same, matched⟩

def fallbackKind (station : Station) : RadioItemKind :=
  if station.contentMode = .videoOnly then .video else .song

/-- No item of the domain is one that its filters ask for, or the station does not play it. -/
def LeavesNone (station : Station) (filters : List FilterRow) (kind : RadioItemKind) : Prop :=
  station.contentMode.resolves kind = true →
    ∀ id, ¬ lib.Selects kind (domainFilters filters kind) id

theorem resolve_eq_nil_iff (station : Station) (filters : List FilterRow) (kind : RadioItemKind) :
    lib.resolve station.contentMode filters kind = [] ↔ lib.LeavesNone station filters kind := by
  unfold resolve LeavesNone
  cases allowed : station.contentMode.resolves kind with
  | false => exact ⟨fun _ played => (nomatch played), fun _ => rfl⟩
  | true =>
    rw [if_pos rfl, List.eq_nil_iff_forall_not_mem]
    simp only [mem_resolveDomain, true_imp_iff]

instance (station : Station) (filters : List FilterRow) (kind : RadioItemKind) :
    Decidable (lib.LeavesNone station filters kind) :=
  decidable_of_iff _ (lib.resolve_eq_nil_iff station filters kind)

/-- The filters leave nothing to pick from: in album mode in the one domain that is played, in
shuffle mode in both. -/
def FallsBack (station : Station) (filters : List FilterRow) : Prop :=
  (station.playMode = .album → lib.LeavesNone station filters (fallbackKind station)) ∧
    (station.playMode = .shuffle →
      lib.LeavesNone station filters .song ∧ lib.LeavesNone station filters .video)

instance (station : Station) (filters : List FilterRow) : Decidable (lib.FallsBack station filters) :=
  inferInstanceAs (Decidable ((_ → _) ∧ (_ → _)))

/-- Some filter row applies to a domain that the station allows. -/
def Applies (station : Station) (filters : List FilterRow) : Prop :=
  ∃ kind, station.contentMode.resolves kind = true ∧ domainFilters filters kind ≠ []

/-- Whatever is chosen, a track that was not requested is one that the filters of its domain ask
for, and is not offline. -/
def PlaysWithin (station : Station) (filters : List FilterRow) (requests : List QueuedRequest)
    (history : List String) (anchor : Option String) (forceNew : Bool) : Prop :=
  Applies station filters → ∀ pick track,
    lib.pickForStation station filters requests history anchor forceNew pick = .ok track →
    track.requested = false →
    lib.Selects track.kind (domainFilters filters track.kind) track.id ∧
      lib.isOffline track.kind track.id = false

@[grind =] def served (station : Station) (requests : List QueuedRequest) : Option RadioTrack :=
  if station.acceptsRequests then lib.serveRequest station.contentMode requests else none

/-- A request is served, or no filter row applies, or the filters leave something to pick from, or
the domain to fall back to has no available item. -/
def KeepsWithin (station : Station) (filters : List FilterRow) (requests : List QueuedRequest) :
    Prop :=
  lib.served station requests ≠ none ∨ ¬ Applies station filters ∨
    ¬ lib.FallsBack station filters ∨ lib.availableIds (fallbackKind station) = []

variable {filters : List FilterRow} {id : String}

theorem resolve_selects {mode : ContentMode} (resolved : id ∈ lib.resolve mode filters kind) :
    lib.Selects kind (domainFilters filters kind) id := by
  unfold resolve at resolved
  split at resolved
  · exact (lib.mem_resolveDomain kind _ id).mp resolved
  · cases resolved

theorem mem_availableIds (kind : RadioItemKind) (id : String) : id ∈ lib.availableIds kind ↔
    ∃ item, (lib.items kind).get id = some item ∧ item.playable = true ∧ item.offline = false := by
  rw [availableIds, List.mem_map]
  constructor
  · rintro ⟨item, member, rfl⟩
    obtain ⟨there, available⟩ := List.mem_filter.mp member
    obtain ⟨playable, online⟩ := Bool.and_eq_true_iff.mp available
    exact ⟨item, (Table.get_eq_some _ _ _).mpr ⟨there, rfl⟩, playable,
      (Bool.not_eq_true' _).mp online⟩
  · rintro ⟨item, found, playable, online⟩
    obtain ⟨there, same⟩ := (Table.get_eq_some _ _ _).mp found
    refine ⟨item, List.mem_filter.mpr ⟨there, ?_⟩, same⟩
    rw [playable, online]
    rfl

theorem not_offline_of_available
    (there : id ∈ lib.availableIds kind) : lib.isOffline kind id = false := by
  obtain ⟨item, found, -, online⟩ := (lib.mem_availableIds kind id).mp there
  rw [isOffline, found]
  exact online

theorem mem_allPlayableIds (kind : RadioItemKind) (id : String) : id ∈ lib.allPlayableIds kind ↔
    ∃ item, (lib.items kind).get id = some item ∧ item.playable = true := by
  rw [allPlayableIds, List.mem_map]
  constructor
  · rintro ⟨item, member, rfl⟩
    obtain ⟨there, playable⟩ := List.mem_filter.mp member
    exact ⟨item, (Table.get_eq_some _ _ _).mpr ⟨there, rfl⟩, playable⟩
  · rintro ⟨item, found, playable⟩
    obtain ⟨there, same⟩ := (Table.get_eq_some _ _ _).mp found
    exact ⟨item, List.mem_filter.mpr ⟨there, playable⟩, same⟩

variable {track : RadioTrack}

theorem fetchTrack_ok (fetched : lib.fetchTrack kind id = .ok track) :
    track = ⟨kind, id, false⟩ ∧ id ∈ lib.availableIds kind := by
  unfold fetchTrack at fetched
  cases found : (lib.items kind).get id with
  | none =>
    rw [found] at fetched
    cases fetched
  | some item =>
    rw [found] at fetched
    simp only at fetched
    split at fetched
    · rename_i available
      cases fetched
      obtain ⟨playable, online⟩ := Bool.and_eq_true_iff.mp available
      exact ⟨rfl, (lib.mem_availableIds kind id).mpr
        ⟨item, found, playable, (Bool.not_eq_true' _).mp online⟩⟩
    · cases fetched

theorem fetchTrack_available (there : id ∈ lib.availableIds kind) :
    lib.fetchTrack kind id = .ok ⟨kind, id, false⟩ := by
  obtain ⟨item, found, playable, online⟩ := (lib.mem_availableIds kind id).mp there
  simp only [fetchTrack, found, playable, online, Bool.not_false, Bool.and_self, if_true]

theorem mem_retainAvailable (kind : RadioItemKind) (ids : List String) (id : String) :
    id ∈ lib.retainAvailable kind ids ↔ id ∈ ids ∧ lib.isOffline kind id = false := by
  rw [retainAvailable, List.mem_filter, Bool.not_eq_true']

variable {pick : Nat}

theorem mem_of_choose {α : Type} {xs : List α} {x : α}
    (chosen : choose pick xs = some x) : x ∈ xs := List.mem_of_getElem? chosen

theorem choose_isSome {α : Type} (pick : Nat) {xs : List α} (some_ : xs ≠ []) :
    ∃ x, choose pick xs = some x := by
  have inside : pick % xs.length < xs.length := Nat.mod_lt _ (List.length_pos_iff.mpr some_)
  exact ⟨_, List.getElem?_eq_getElem inside⟩

theorem mem_groupTracks (kind : RadioItemKind) (rows : List LibraryItem) (key id : String) :
    id ∈ groupTracks kind rows key ↔ ∃ row ∈ rows, groupKey row = key ∧ row.id = id := by
  rw [groupTracks, List.mem_map]
  constructor
  · rintro ⟨row, member, rfl⟩
    obtain ⟨there, same⟩ := List.mem_filter.mp ((List.mem_insertionSort _).mp member)
    exact ⟨row, there, of_decide_eq_true same, rfl⟩
  · rintro ⟨row, there, same, rfl⟩
    exact ⟨row, (List.mem_insertionSort _).mpr (List.mem_filter.mpr ⟨there, decide_eq_true same⟩), rfl⟩

variable {rows : List LibraryItem} {last : Option String}

theorem nextInSameGroup_mem (next : nextInSameGroup kind rows last = some id) : ∃ row ∈ rows, row.id = id := by
  obtain ⟨_, -, behind⟩ := Option.bind_eq_some_iff.mp next
  obtain ⟨_, -, there⟩ := Option.bind_eq_some_iff.mp behind
  obtain ⟨row, member, -, same⟩ := (mem_groupTracks _ _ _ _).mp (List.mem_of_getElem? there)
  exact ⟨row, member, same⟩

variable {forceNew : Bool}

theorem mem_pickGroupMode {candidates : List String}
    (picked : lib.pickGroupMode kind candidates last forceNew pick = .ok id) : id ∈ candidates := by
  have candidate {id : String}
      (there : ∃ row ∈ (lib.items kind).rows.filter fun item => item.id ∈ candidates && !item.deleted,
        row.id = id) : id ∈ candidates := by
    obtain ⟨row, member, rfl⟩ := there
    exact of_decide_eq_true (Bool.and_eq_true_iff.mp (List.mem_filter.mp member).2).1
  unfold pickGroupMode at picked
  simp only at picked
  split at picked
  · cases picked
  · split at picked
    · rename_i next here
      cases picked
      split at here
      · cases here
      · exact candidate (nextInSameGroup_mem here)
    · split at picked
      · cases picked
      · split at picked
        · rename_i first head
          cases picked
          obtain ⟨row, member, -, same⟩ := (mem_groupTracks _ _ _ _).mp (List.mem_of_head? head)
          exact candidate ⟨row, member, same⟩
        · cases picked

theorem exists_other {α : Type} {xs : List α} (distinct : xs.Nodup) (several : 1 < xs.length) (a : α) :
    ∃ x ∈ xs, x ≠ a := by
  match xs, distinct, several with
  | x :: y :: rest, distinct, _ =>
    by_cases same : x = a
    · have differs : x ≠ y := fun equal => (List.nodup_cons.mp distinct).1 (by simp [equal])
      exact ⟨y, by simp, fun equal => differs (same.trans equal.symm)⟩
    · exact ⟨x, by simp, same⟩

theorem exists_newGroup (some_ : rows ≠ []) (last : Option String) : newGroups rows last ≠ [] := by
  obtain ⟨row, member⟩ := List.exists_mem_of_ne_nil rows some_
  have key : groupKey row ∈ (rows.map groupKey).dedup :=
    List.mem_dedup.mpr (List.mem_map_of_mem member)
  unfold newGroups
  simp only
  split
  · rename_i lastRow _
    split
    · rename_i several
      obtain ⟨other, there, differs⟩ :=
        exists_other (List.nodup_dedup (rows.map groupKey)) several (groupKey lastRow)
      exact List.ne_nil_of_mem (List.mem_filter.mpr ⟨there, decide_eq_true differs⟩)
    · exact List.ne_nil_of_mem key
  · exact List.ne_nil_of_mem key

theorem mem_newGroups {key : String}
    (member : key ∈ newGroups rows last) : ∃ row ∈ rows, groupKey row = key := by
  have listed : key ∈ (rows.map groupKey).dedup := by
    unfold newGroups at member
    simp only at member
    split at member
    · split at member
      · exact (List.mem_filter.mp member).1
      · exact member
    · exact member
  exact List.mem_map.mp (List.mem_dedup.mp listed)

theorem pickGroupMode_isOk {candidates : List String}
    (candidate : id ∈ candidates) (there : id ∈ lib.availableIds kind) (last : Option String)
    (forceNew : Bool) (pick : Nat) :
    ∃ chosen, lib.pickGroupMode kind candidates last forceNew pick = .ok chosen := by
  obtain ⟨item, found, playable, -⟩ := (lib.mem_availableIds kind id).mp there
  obtain ⟨member, rfl⟩ := (Table.get_eq_some _ _ _).mp found
  have kept : item.deleted = false := by
    rw [LibraryItem.playable, Bool.and_eq_true_iff, Bool.and_eq_true_iff] at playable
    exact (Bool.not_eq_true' _).mp playable.1.2
  have some_ : ((lib.items kind).rows.filter fun item => item.id ∈ candidates && !item.deleted) ≠ [] := by
    refine List.ne_nil_of_mem (List.mem_filter.mpr ⟨member, ?_⟩)
    rw [kept, decide_eq_true candidate]
    rfl
  unfold pickGroupMode
  simp only [List.isEmpty_iff, if_neg some_]
  split
  · exact ⟨_, rfl⟩
  · obtain ⟨key, chosen⟩ := choose_isSome pick (exists_newGroup some_ last)
    rw [chosen]
    obtain ⟨row, inGroup, same⟩ := mem_newGroups (mem_of_choose chosen)
    have track := (mem_groupTracks kind _ key row.id).mpr ⟨row, inGroup, same, rfl⟩
    cases tracks : groupTracks kind
        ((lib.items kind).rows.filter fun item => item.id ∈ candidates && !item.deleted) key with
    | nil =>
      rw [tracks] at track
      cases track
    | cons first rest =>
      refine ⟨first, ?_⟩
      simp only [tracks, List.head?_cons]

def albumCandidates (station : Station) (filters : List FilterRow) : List String :=
  let resolved := lib.resolve station.contentMode filters (fallbackKind station)
  if resolved.isEmpty then
    match fallbackKind station with
    | .song => lib.availableIds .song
    | .video => lib.allPlayableIds .video
  else resolved

theorem pickAlbum_eq (station : Station) (filters : List FilterRow) (history : List String)
    (anchor : Option String) (forceNew : Bool) (pick : Nat) :
    lib.pickAlbum station filters history anchor forceNew pick =
      if (lib.albumCandidates station filters).isEmpty then
        .error (.noneInLibrary (fallbackKind station))
      else match lib.pickGroupMode (fallbackKind station)
          (lib.retainAvailable (fallbackKind station) (lib.albumCandidates station filters))
          (resolveLastSongId anchor history) forceNew pick with
        | .ok chosen => lib.fetchTrack (fallbackKind station) chosen
        | .error error => .error error := rfl

variable {station : Station} {history : List String}

theorem pickAlbum_ok {anchor : Option String}
    (picked : lib.pickAlbum station filters history anchor forceNew pick = .ok track) :
    track.kind = fallbackKind station ∧ track.id ∈ lib.availableIds track.kind ∧
      (lib.resolve station.contentMode filters (fallbackKind station) ≠ [] →
        track.id ∈ lib.resolve station.contentMode filters track.kind) := by
  rw [pickAlbum_eq] at picked
  split at picked
  · cases picked
  · split at picked
    · rename_i chosen grouped
      obtain ⟨rfl, available⟩ := lib.fetchTrack_ok picked
      obtain ⟨candidate, -⟩ := (lib.mem_retainAvailable _ _ _).mp (lib.mem_pickGroupMode grouped)
      refine ⟨rfl, available, fun some_ => ?_⟩
      have same : lib.albumCandidates station filters =
          lib.resolve station.contentMode filters (fallbackKind station) := by
        rw [albumCandidates]
        simp only [List.isEmpty_iff, if_neg some_]
      rw [same] at candidate
      exact candidate
    · cases picked

theorem mem_availableIds_iff (kind : RadioItemKind) (id : String) : id ∈ lib.availableIds kind ↔
    id ∈ lib.allPlayableIds kind ∧ lib.isOffline kind id = false := by
  constructor
  · intro there
    obtain ⟨item, found, playable, -⟩ := (lib.mem_availableIds kind id).mp there
    exact ⟨(lib.mem_allPlayableIds kind id).mpr ⟨item, found, playable⟩,
      lib.not_offline_of_available there⟩
  · rintro ⟨there, online⟩
    obtain ⟨item, found, playable⟩ := (lib.mem_allPlayableIds kind id).mp there
    rw [isOffline, found] at online
    exact (lib.mem_availableIds kind id).mpr ⟨item, found, playable, online⟩

theorem mem_albumCandidates
    (empty : lib.resolve station.contentMode filters (fallbackKind station) = []) (id : String) :
    id ∈ lib.retainAvailable (fallbackKind station) (lib.albumCandidates station filters) ↔
      id ∈ lib.availableIds (fallbackKind station) := by
  rw [mem_retainAvailable, albumCandidates]
  simp only [empty, List.isEmpty_nil, if_true]
  cases fallbackKind station with
  | song => exact ⟨And.left, fun there => ⟨there, lib.not_offline_of_available there⟩⟩
  | video => exact (lib.mem_availableIds_iff .video id).symm

theorem pickAlbum_fallsBack
    (empty : lib.resolve station.contentMode filters (fallbackKind station) = [])
    (some_ : lib.availableIds (fallbackKind station) ≠ []) (history : List String)
    (anchor : Option String) (forceNew : Bool) (pick : Nat) :
    ∃ id, lib.pickAlbum station filters history anchor forceNew pick =
      .ok ⟨fallbackKind station, id, false⟩ := by
  obtain ⟨id, there⟩ := List.exists_mem_of_ne_nil _ some_
  have candidate := (lib.mem_albumCandidates empty id).mpr there
  have nonempty : lib.albumCandidates station filters ≠ [] :=
    List.ne_nil_of_mem ((lib.mem_retainAvailable _ _ _).mp candidate).1
  obtain ⟨chosen, grouped⟩ := lib.pickGroupMode_isOk candidate there
    (resolveLastSongId anchor history) forceNew pick
  have available := (lib.mem_albumCandidates empty chosen).mp (lib.mem_pickGroupMode grouped)
  refine ⟨chosen, ?_⟩
  simp only [pickAlbum_eq, List.isEmpty_iff, if_neg nonempty, grouped]
  exact lib.fetchTrack_available available

theorem mem_notRecent {songs videos : List String}
    (member : id ∈ notRecent history songs videos) : id ∈ songs := by
  unfold notRecent at member
  simp only at member
  split at member
  · exact member
  · split at member
    · exact member
    · exact (List.mem_filter.mp member).1

theorem pickRandom_ok (picked : lib.pickRandom kind pick = .ok track) :
    track.kind = kind ∧ track.id ∈ lib.availableIds kind := by
  cases kind with
  | song =>
    unfold pickRandom at picked
    simp only at picked
    split at picked
    · rename_i id chosen
      cases picked
      exact ⟨rfl, mem_of_choose chosen⟩
    · cases picked
  | video =>
    unfold pickRandom at picked
    simp only at picked
    split at picked
    · obtain ⟨rfl, available⟩ := lib.fetchTrack_ok picked
      exact ⟨rfl, available⟩
    · cases picked

theorem pickRandom_isOk (some_ : lib.availableIds kind ≠ []) (pick : Nat) :
    ∃ id, lib.pickRandom kind pick = .ok ⟨kind, id, false⟩ := by
  cases kind with
  | song =>
    obtain ⟨id, chosen⟩ := choose_isSome pick some_
    refine ⟨id, ?_⟩
    unfold pickRandom
    simp only [chosen]
  | video =>
    have same (id : String) : id ∈ lib.retainAvailable .video (lib.allPlayableIds .video) ↔
        id ∈ lib.availableIds .video :=
      (lib.mem_retainAvailable _ _ _).trans (lib.mem_availableIds_iff .video id).symm
    obtain ⟨first, there⟩ := List.exists_mem_of_ne_nil _ some_
    obtain ⟨id, chosen⟩ := choose_isSome pick (List.ne_nil_of_mem ((same first).mpr there))
    refine ⟨id, ?_⟩
    unfold pickRandom
    simp only [chosen]
    exact lib.fetchTrack_available ((same id).mp (mem_of_choose chosen))

theorem pickShuffle_ok (picked : lib.pickShuffle station filters history pick = .ok track) :
    track.id ∈ lib.availableIds track.kind ∧
      (track.id ∈ lib.resolve station.contentMode filters track.kind ∨
        track.kind = fallbackKind station ∧ lib.resolve station.contentMode filters .song = [] ∧
          lib.resolve station.contentMode filters .video = []) := by
  unfold pickShuffle at picked
  simp only at picked
  split at picked
  · rename_i empty
    obtain ⟨songs, videos⟩ := Bool.and_eq_true_iff.mp empty
    obtain ⟨kind, available⟩ := lib.pickRandom_ok picked
    refine ⟨kind ▸ available, .inr ⟨kind, ?_, ?_⟩⟩
    · exact List.isEmpty_iff.mp songs
    · exact List.isEmpty_iff.mp videos
  · split at picked
    · rename_i chosen pooled
      obtain ⟨rfl, available⟩ := lib.fetchTrack_ok picked
      refine ⟨available, .inl ?_⟩
      rcases List.mem_append.mp (mem_of_choose pooled) with song | video
      · obtain ⟨id, member, rfl⟩ := List.mem_map.mp song
        exact ((lib.mem_retainAvailable _ _ _).mp (mem_notRecent member)).1
      · obtain ⟨id, member, rfl⟩ := List.mem_map.mp video
        exact ((lib.mem_retainAvailable _ _ _).mp member).1
    · cases picked

theorem pickShuffle_fallsBack (songs : lib.resolve station.contentMode filters .song = [])
    (videos : lib.resolve station.contentMode filters .video = [])
    (some_ : lib.availableIds (fallbackKind station) ≠ []) (history : List String) (pick : Nat) :
    ∃ id, lib.pickShuffle station filters history pick = .ok ⟨fallbackKind station, id, false⟩ := by
  unfold pickShuffle
  simp only [songs, videos, List.isEmpty_nil, Bool.and_self, if_true]
  exact lib.pickRandom_isOk some_ pick

variable {requests : List QueuedRequest}

theorem served_requested
    (serves : lib.served station requests = some track) : track.requested = true := by
  unfold served at serves
  split at serves
  · induction requests with
    | nil => cases serves
    | cons req rest ih =>
      unfold serveRequest at serves
      split at serves
      · split at serves
        · cases serves
          rfl
        · exact ih serves
      · exact ih serves
  · cases serves

theorem resolves_fallbackKind (station : Station) :
    station.contentMode.resolves (fallbackKind station) = true := by
  unfold fallbackKind
  cases mode : station.contentMode with
  | audioOnly => rfl
  | audioOrVideo => rfl
  | videoOnly => rfl

theorem pickForStation_served
    {request : RadioTrack} (serves : lib.served station requests = some request)
    (filters : List FilterRow) (history : List String) (anchor : Option String) (forceNew : Bool)
    (pick : Nat) :
    lib.pickForStation station filters requests history anchor forceNew pick = .ok request := by
  unfold pickForStation
  rw [← served, serves]

theorem pickForStation_own
    (serves : lib.served station requests = none) (filters : List FilterRow) (history : List String)
    (anchor : Option String) (forceNew : Bool) (pick : Nat) :
    lib.pickForStation station filters requests history anchor forceNew pick =
      match station.playMode with
      | .album => lib.pickAlbum station filters history anchor forceNew pick
      | .shuffle => lib.pickShuffle station filters history pick := by
  unfold pickForStation
  split
  · rename_i request first
    rw [← served, serves] at first
    cases first
  · rfl

/-- What the picker picks itself is available, and within the resolution of its domain unless it
falls back. -/
theorem own_ok {anchor : Option String} (serves : lib.served station requests = none)
    (picked : lib.pickForStation station filters requests history anchor forceNew pick = .ok track) :
    track.id ∈ lib.availableIds track.kind ∧
      (track.id ∈ lib.resolve station.contentMode filters track.kind ∨
        lib.FallsBack station filters ∧ track.kind = fallbackKind station) := by
  rw [lib.pickForStation_own serves] at picked
  cases playMode : station.playMode with
  | album =>
    rw [playMode] at picked
    obtain ⟨kind, available, within⟩ := lib.pickAlbum_ok picked
    refine ⟨available, ?_⟩
    by_cases empty : lib.resolve station.contentMode filters (fallbackKind station) = []
    · refine .inr ⟨⟨fun _ => (lib.resolve_eq_nil_iff _ _ _).mp empty, fun shuffle => ?_⟩, kind⟩
      rw [playMode] at shuffle
      cases shuffle
    · exact .inl (within empty)
  | shuffle =>
    rw [playMode] at picked
    obtain ⟨available, within⟩ := lib.pickShuffle_ok picked
    refine ⟨available, within.imp_right fun ⟨kind, songs, videos⟩ => ⟨⟨fun album => ?_, fun _ =>
      ⟨(lib.resolve_eq_nil_iff _ _ _).mp songs, (lib.resolve_eq_nil_iff _ _ _).mp videos⟩⟩, kind⟩⟩
    rw [playMode] at album
    cases album

/-- Where the picker falls back and there is something to play, it plays what the filters leave out. -/
theorem own_fallsBack
    (serves : lib.served station requests = none) (falls : lib.FallsBack station filters)
    (some_ : lib.availableIds (fallbackKind station) ≠ []) (history : List String)
    (anchor : Option String) (forceNew : Bool) (pick : Nat) :
    ∃ id, lib.pickForStation station filters requests history anchor forceNew pick =
        .ok ⟨fallbackKind station, id, false⟩ ∧
      ¬ lib.Selects (fallbackKind station) (domainFilters filters (fallbackKind station)) id := by
  rw [lib.pickForStation_own serves]
  cases playMode : station.playMode with
  | album =>
    have none_ := falls.1 playMode
    obtain ⟨id, picked⟩ := lib.pickAlbum_fallsBack ((lib.resolve_eq_nil_iff _ _ _).mpr none_) some_
      history anchor forceNew pick
    exact ⟨id, picked, none_ (resolves_fallbackKind station) id⟩
  | shuffle =>
    obtain ⟨songs, videos⟩ := falls.2 playMode
    obtain ⟨id, picked⟩ := lib.pickShuffle_fallsBack ((lib.resolve_eq_nil_iff _ _ _).mpr songs)
      ((lib.resolve_eq_nil_iff _ _ _).mpr videos) some_ history pick
    have none_ : lib.LeavesNone station filters (fallbackKind station) := by
      cases fallbackKind station with
      | song => exact songs
      | video => exact videos
    exact ⟨id, picked, none_ (resolves_fallbackKind station) id⟩

/-- A station plays within its filters exactly if it keeps within them: it serves a request, has no
filter that applies, or its filters leave something, or there is nothing to fall back to. -/
theorem plays_within_iff (station : Station) (filters : List FilterRow)
    (requests : List QueuedRequest) (history : List String) (anchor : Option String)
    (forceNew : Bool) :
    lib.PlaysWithin station filters requests history anchor forceNew ↔
      lib.KeepsWithin station filters requests := by
  constructor
  · intro plays
    by_cases serves : lib.served station requests = none
    · refine .inr ?_
      by_cases applies : Applies station filters
      · refine .inr ?_
        by_cases falls : lib.FallsBack station filters
        · refine .inr (not_not.mp fun some_ => ?_)
          obtain ⟨id, picked, outside⟩ :=
            lib.own_fallsBack serves falls some_ history anchor forceNew 0
          exact outside (plays applies 0 _ picked rfl).1
        · exact .inl falls
      · exact .inl applies
    · exact .inl serves
  · intro keeps applies pick track picked own
    cases serves : lib.served station requests with
    | some request =>
      rw [lib.pickForStation_served serves] at picked
      cases picked
      rw [lib.served_requested serves] at own
      cases own
    | none =>
      obtain ⟨available, within⟩ := lib.own_ok serves picked
      refine ⟨?_, lib.not_offline_of_available available⟩
      rcases within with resolved | ⟨falls, kind⟩
      · exact lib.resolve_selects resolved
      · rcases keeps with other | other | other | none_
        · exact absurd serves other
        · exact absurd applies other
        · exact absurd falls other
        · rw [kind, none_] at available
          cases available

end Library

def twoSongs : Library where
  items
    | .song => ⟨[⟨"s1", some "a1", none, some 1, true, false, false, false⟩,
        ⟨"s2", some "a2", none, some 1, true, false, false, false⟩], by decide⟩
    | .video => ∅
  clauseIds
    | .song, row => if row.filterType = .artist && row.value = "ada" then ["s1"] else []
    | .video, _ => []

def adaButNoSong : List FilterRow := [⟨.artist, .include_, "ada"⟩, ⟨.artist, .exclude_, "ada"⟩]

theorem not_playsWithin {station : Station} (applies : Library.Applies station adaButNoSong)
    (serves : twoSongs.served station [] = none) (falls : twoSongs.FallsBack station adaButNoSong)
    (some_ : twoSongs.availableIds (Library.fallbackKind station) ≠ []) :
    ¬ twoSongs.PlaysWithin station adaButNoSong [] [] none false := by
  intro plays
  obtain ⟨id, picked, outside⟩ := twoSongs.own_fallsBack serves falls some_ [] none false 0
  exact outside (plays applies 0 _ picked rfl).1

/-- The one artist is included and the one song of hers excluded: the station plays all songs, in
shuffle mode and in album mode. -/
theorem excluded_song_plays :
    ¬ twoSongs.PlaysWithin ⟨.audioOnly, .shuffle, false⟩ adaButNoSong [] [] none false ∧
    ¬ twoSongs.PlaysWithin ⟨.audioOnly, .album, false⟩ adaButNoSong [] [] none false := by
  constructor
  · exact not_playsWithin ⟨.song, rfl, by decide⟩ rfl (by decide) (by decide)
  · exact not_playsWithin ⟨.song, rfl, by decide⟩ rfl (by decide) (by decide)

end Tomb.Grimoire.Radio
