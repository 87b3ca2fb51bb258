import Tomb.Grimoire.Music.Crud.ImportSteps

/-! What any number of imports, whose statements interleave, leave in the library. -/
namespace Tomb.Grimoire.Music.Crud
open Lib

namespace Library

variable (lib : Library)

def HasArtist (id : String) : Prop := ∃ artist ∈ lib.artists, artist.id = id

/-- The artist is there, and the album is one of theirs. -/
def Owns (artist album : String) : Prop :=
  lib.HasArtist artist ∧ (artist, album) ∈ lib.artistAlbumz

variable {lib} {lib' : Library}

theorem HasArtist.mono {id : String} (has : lib.HasArtist id) (more : Extends lib lib') :
    lib'.HasArtist id := by
  obtain ⟨artist, there, same⟩ := has
  exact ⟨artist, more.artists artist there, same⟩

theorem Owns.mono {artist album : String} (owns : lib.Owns artist album)
    (more : Extends lib lib') : lib'.Owns artist album :=
  ⟨owns.1.mono more, more.artistAlbumz owns.2⟩

theorem hasArtist_iff {id : String} : lib.hasArtist id = true ↔ lib.HasArtist id := by
  simp [hasArtist, HasArtist, Table.mem_def]

theorem hasSong_iff {id : String} : lib.hasSong id = true ↔ ∃ song ∈ lib.songs, song.id = id := by
  simp [hasSong, Table.mem_def]

end Library

namespace Call

def awaits : Call → Option String
  | .linkingArtistSong _ _ _ song | .linkingAlbumSong _ _ _ song => some song
  | _ => none

/-- What the call has found or created is in the library. -/
def Placed (lib : Library) : Call → Prop
  | .findingGenre _ artist _ _ => ∀ id ∈ artist, lib.HasArtist id
  | .seekingAlbum _ artist | .creatingAlbum _ artist => lib.HasArtist artist
  | .linkingAlbum i artist album =>
    lib.HasArtist artist ∧ ∃ row ∈ lib.albums, row.id = album ∧ row.title = i.albumTitle
  | .upgradingAlbum _ artist album | .creatingSong _ artist album
  | .linkingArtistAlbum _ artist album _ => lib.Owns artist album
  | .linkingArtistSong _ artist album song =>
    lib.Owns artist album ∧ ∃ row ∈ lib.songs, row.id = song
  | .linkingAlbumSong _ artist album song =>
    lib.Owns artist album ∧ (∃ row ∈ lib.songs, row.id = song) ∧ (artist, song) ∈ lib.artistSongz
  | _ => True

/-- No other call has brought in, since the look-up, what this statement creates; and the
statements that link a new song do not fail. -/
@[grind =] def undisturbed (lib : Library) (answer : Answer) : Call → Bool
  | .creatingArtist i => !answer.ok || (lib.artistsNamed i.artistName).isEmpty
  | .linkingAlbum i artist _ => !answer.ok || (lib.albumsTitled artist i.albumTitle).isEmpty
  | .linkingArtistSong .. | .linkingAlbumSong .. => answer.ok
  | _ => true

variable {lib lib' : Library}

theorem Placed.mono {call : Call} (placed : call.Placed lib) (more : Library.Extends lib lib') :
    call.Placed lib' := by
  have song {id : String} : (∃ row ∈ lib.songs, row.id = id) → ∃ row ∈ lib'.songs, row.id = id :=
    fun ⟨row, there, same⟩ => ⟨row, more.songs row there, same⟩
  cases call with
  | findingGenre => exact fun id named => (placed id named).mono more
  | seekingAlbum => exact Library.HasArtist.mono placed more
  | creatingAlbum => exact Library.HasArtist.mono placed more
  | linkingAlbum =>
    obtain ⟨has, row, there, same, titled⟩ := placed
    obtain ⟨row', there', same', titled'⟩ := more.albums row there
    exact ⟨has.mono more, row', there', same'.trans same, titled'.trans titled⟩
  | upgradingAlbum => exact Library.Owns.mono placed more
  | creatingSong => exact Library.Owns.mono placed more
  | linkingArtistAlbum => exact Library.Owns.mono placed more
  | linkingArtistSong => exact ⟨placed.1.mono more, song placed.2⟩
  | linkingAlbumSong =>
    exact ⟨placed.1.mono more, song placed.2.1, more.artistSongz placed.2.2⟩
  | _ => trivial

theorem placed_findGenres {i : Import} {artist : Option String} {names : List String}
    (has : ∀ id ∈ artist, lib.HasArtist id) : (findGenres i artist names).Placed lib := by
  unfold findGenres
  split
  · exact has
  · split
    · rename_i known
      exact has known rfl
    · trivial

theorem placed_withArtist {i : Import} {artist : String} (has : lib.HasArtist artist) :
    (withArtist i artist).Placed lib := by
  unfold withArtist
  split
  · refine placed_findGenres fun id named => ?_
    cases named
    exact has
  · exact has

theorem placed_start (req : ImportSongRequest) : (start req).Placed lib := by
  unfold start
  dsimp only
  split
  · trivial
  · exact placed_findGenres fun id => nofun

theorem placed_enter (skipDuplicates : Bool) (req : ImportSongRequest) :
    (enter skipDuplicates req).Placed lib := by
  unfold enter
  split
  · trivial
  · exact placed_start req

/-- What a statement of the call does to the library, and what the call keeps in mind. -/
structure Goes (lib : Library) (call : Call) (result : Library × Call) : Prop where
  more : Library.Extends lib result.1
  dedup : result.1.Deduplicated
  placed : result.2.Placed result.1
  kept : ∀ song, call.awaits = some song →
    result.2.awaits = some song ∨ result.1.Linked song
  new : ∀ song ∈ result.1.songs, song ∈ lib.songs ∨ result.2.awaits = some song.id

section Steps

variable {call call' : Call} {answer : Answer}

theorem Goes.reads (dedup : lib.Deduplicated) (plain : call.awaits = none)
    (placed : call'.Placed lib) : Goes lib call (lib, call') := by
  refine ⟨.refl, dedup, placed, fun song awaited => ?_, fun song there => .inl there⟩
  rw [plain] at awaited
  cases awaited

theorem Goes.writes (more : Library.Extends lib lib') (dedup : lib'.Deduplicated)
    (plain : call.awaits = none) (placed : call'.Placed lib') (songs : lib'.songs = lib.songs) :
    Goes lib call (lib', call') := by
  refine ⟨more, dedup, placed, fun song awaited => ?_, fun song there => .inl (songs ▸ there)⟩
  rw [plain] at awaited
  cases awaited

theorem tried_eq_some {α : Type} {result : Option α} {value : α}
    (done : tried answer result = some value) : answer.ok = true ∧ result = some value := by
  unfold tried at done
  split at done
  · rename_i ok
    exact ⟨ok, done⟩
  · cases done

theorem goes_creatingArtist {i : Import} (dedup : lib.Deduplicated)
    (fits : (creatingArtist i).undisturbed lib answer = true) :
    Goes lib (creatingArtist i) ((creatingArtist i).next lib answer) := by
  rw [next]
  split
  · rename_i lib' done
    obtain ⟨ok, inserted⟩ := tried_eq_some done
    have free : lib.artistsNamed i.artistName = [] := by
      simpa [undisturbed, ok] using fits
    obtain ⟨more, there⟩ := Library.insertArtist_extends inserted
    have unique : lib'.Deduplicated := by
      apply dedup.insertArtist _ inserted
      exact free
    have has : lib'.HasArtist answer.id := ⟨_, there, rfl⟩
    refine .writes more unique rfl (placed_withArtist has) ?_
    obtain ⟨artists, _, rfl⟩ := Option.map_eq_some_iff.mp inserted
    rfl
  · exact .reads dedup rfl trivial

variable {artist : String}

theorem goes_creatingAlbum {i : Import} (dedup : lib.Deduplicated) (has : lib.HasArtist artist) :
    Goes lib (creatingAlbum i artist) ((creatingAlbum i artist).next lib answer) := by
  rw [next]
  split
  · rename_i lib' done
    obtain ⟨_, inserted⟩ := tried_eq_some done
    obtain ⟨more, there⟩ := Library.insertAlbum_extends inserted
    refine .writes more (dedup.insertAlbum inserted) rfl ⟨has.mono more, _, there, rfl, rfl⟩ ?_
    obtain ⟨albums, known, _, rfl⟩ := Library.insertAlbum_eq inserted
    rfl
  · exact .reads dedup rfl trivial

variable {album : String}

theorem goes_linkingAlbum {i : Import} (dedup : lib.Deduplicated)
    (placed : (linkingAlbum i artist album).Placed lib)
    (fits : (linkingAlbum i artist album).undisturbed lib answer = true) :
    Goes lib (linkingAlbum i artist album) ((linkingAlbum i artist album).next lib answer) := by
  obtain ⟨has, row, there, named, titled⟩ := placed
  rw [next]
  split
  · rename_i lib' done
    obtain ⟨ok, linked⟩ := tried_eq_some done
    have none : lib.albumsTitled artist i.albumTitle = [] := by
      simpa [undisturbed, ok] using fits
    obtain ⟨more, owned, songs⟩ := Library.createArtistAlbumRelationship_extends linked
    refine .writes more ?_ rfl ⟨has.mono more, owned⟩ songs
    refine dedup.createArtistAlbumRelationship there named ?_ linked
    intro other known live theirs same
    have found : other ∈ lib.albumsTitled artist i.albumTitle := by
      rw [Library.albumsTitled, Table.mem_select]
      rw [titled] at same
      simp [known, same, theirs, live]
    rw [none] at found
    cases found
  · exact .reads dedup rfl trivial

theorem goes_creatingSong {i : Import} (dedup : lib.Deduplicated) (owns : lib.Owns artist album) :
    Goes lib (creatingSong i artist album) ((creatingSong i artist album).next lib answer) := by
  rw [next]
  split
  · split
    · rename_i lib' inserted
      obtain ⟨more, songs⟩ := Library.insertSong_extends inserted
      refine ⟨more, dedup.insertSong inserted, ?_, fun song awaited => (by cases awaited), fun song there => ?_⟩
      · exact ⟨owns.mono more, _, Library.insertSong_mem inserted, rfl⟩
      · rcases songs song there with before | rfl
        · exact .inl before
        · exact .inr rfl
    · exact .reads dedup rfl trivial
    · exact .reads dedup rfl trivial
  · exact .reads dedup rfl trivial

theorem goes_linkingArtistSong {i : Import} {song : String}
    (dedup : lib.Deduplicated) (placed : (linkingArtistSong i artist album song).Placed lib)
    (fits : (linkingArtistSong i artist album song).undisturbed lib answer = true) :
    Goes lib (linkingArtistSong i artist album song)
      ((linkingArtistSong i artist album song).next lib answer) := by
  obtain ⟨owns, there⟩ := placed
  have ok : answer.ok = true := fits
  have present : (lib.hasArtist artist && lib.hasSong song) = true :=
    Bool.and_eq_true_iff.mpr ⟨Library.hasArtist_iff.mpr owns.1, Library.hasSong_iff.mpr there⟩
  rw [next, tried, if_pos ok, Library.createArtistSongRelationship, if_pos present]
  have more : Library.Extends lib
      { lib with artistSongz := Library.insertLink lib.artistSongz (artist, song) } :=
    { (.refl : Library.Extends lib lib) with artistSongz := Library.subset_insertLink _ _ }
  refine ⟨more, ⟨dedup.songs, dedup.artists, dedup.albums⟩, ?_, ?_, fun _ => .inl⟩
  · exact ⟨owns.mono more, there, Library.mem_insertLink.mpr (.inr rfl)⟩
  · exact fun _ awaited => .inl awaited

theorem goes_linkingAlbumSong {i : Import} {song : String}
    (dedup : lib.Deduplicated) (placed : (linkingAlbumSong i artist album song).Placed lib)
    (fits : (linkingAlbumSong i artist album song).undisturbed lib answer = true) :
    Goes lib (linkingAlbumSong i artist album song)
      ((linkingAlbumSong i artist album song).next lib answer) := by
  obtain ⟨owns, there, byArtist⟩ := placed
  have ok : answer.ok = true := fits
  obtain ⟨row, known, same⟩ := lib.known _ owns.2
  have present : (lib.hasAlbum album && lib.hasSong song) = true :=
    Bool.and_eq_true_iff.mpr
      ⟨lib.hasAlbum_iff.mpr ⟨row, known, same⟩, Library.hasSong_iff.mpr there⟩
  rw [next, tried, if_pos ok, Library.createAlbumSongRelationship, if_pos present]
  have more : Library.Extends lib
      { lib with albumSongz := Library.insertLink lib.albumSongz (album, song) } :=
    { (.refl : Library.Extends lib lib) with albumSongz := Library.subset_insertLink _ _ }
  refine ⟨more, ⟨dedup.songs, dedup.artists, dedup.albums⟩, owns.mono more, ?_, fun _ => .inl⟩
  intro awaited same'
  cases same'
  obtain ⟨by_, theirs, named⟩ := owns.1
  refine .inr ⟨⟨by_, theirs, named ▸ byArtist⟩, row, known, ?_⟩
  exact Library.mem_insertLink.mpr (.inr (congrArg (·, song) same))

theorem goes_linkingArtistAlbum {i : Import} {song : String}
    (dedup : lib.Deduplicated) (owns : lib.Owns artist album) :
    Goes lib (linkingArtistAlbum i artist album song)
      ((linkingArtistAlbum i artist album song).next lib answer) := by
  rw [next]
  split
  · rename_i lib' done
    obtain ⟨_, linked⟩ := tried_eq_some done
    obtain ⟨more, _, songs⟩ := Library.createArtistAlbumRelationship_extends linked
    refine .writes more ?_ rfl trivial songs
    -- The link is there already.
    obtain ⟨known, rfl⟩ := Library.createArtistAlbumRelationship_eq linked
    have same : Library.insertLink lib.artistAlbumz (artist, album) = lib.artistAlbumz :=
      if_pos owns.2
    refine ⟨dedup.songs, dedup.artists, ?_⟩
    dsimp only
    rw [same]
    exact dedup.albums
  · exact .reads dedup rfl trivial

theorem goes_seekingAlbum {i : Import} (dedup : lib.Deduplicated) (has : lib.HasArtist artist) :
    Goes lib (seekingAlbum i artist) ((seekingAlbum i artist).next lib answer) := by
  rw [next]
  split
  · split
    · rename_i album found
      obtain ⟨_, fits⟩ := (Table.mem_select ..).mp (Library.limitOne_eq_some found)
      have owns : lib.Owns artist album.id := by
        refine ⟨has, ?_⟩
        simp only [Bool.and_eq_true, decide_eq_true_eq] at fits
        exact fits.1.2
      split
      · exact .reads dedup rfl owns
      · exact .reads dedup rfl owns
    · exact .reads dedup rfl has
  · exact .reads dedup rfl trivial

theorem goes_seekingArtist {i : Import} (dedup : lib.Deduplicated) :
    Goes lib (seekingArtist i) ((seekingArtist i).next lib answer) := by
  rw [next]
  split
  · split
    · rename_i artist found
      have there := ((Table.mem_select ..).mp (Library.limitOne_eq_some found)).1
      exact .reads dedup rfl (placed_withArtist ⟨artist, there, rfl⟩)
    · exact .reads dedup rfl trivial
  · exact .reads dedup rfl trivial

theorem goes_findingGenre {i : Import} {artist : Option String} {name : String}
    {rest : List String} (dedup : lib.Deduplicated) (has : ∀ id ∈ artist, lib.HasArtist id) :
    Goes lib (findingGenre i artist name rest)
      ((findingGenre i artist name rest).next lib answer) := by
  rw [next]
  split
  · exact .reads dedup rfl (placed_findGenres has)
  · exact .reads dedup rfl trivial

theorem goes_upgradingAlbum {i : Import} (dedup : lib.Deduplicated) (owns : lib.Owns artist album) :
    Goes lib (upgradingAlbum i artist album) ((upgradingAlbum i artist album).next lib answer) := by
  rw [next]
  split
  · have more : Library.Extends lib (lib.setAlbumType album i.albumType) :=
      Library.setAlbumType_extends album i.albumType
    exact .writes more (dedup.setAlbumType album i.albumType) rfl (owns.mono more) rfl
  · exact .reads dedup rfl owns

/-- Every statement of an import keeps the library free of duplicates, and the song that it has
brought in in the call's mind until it is linked. -/
theorem goes (dedup : lib.Deduplicated) (placed : call.Placed lib)
    (fits : call.undisturbed lib answer = true) : Goes lib call (call.next lib answer) := by
  cases call with
  | checking req =>
    rw [next]
    split
    · exact .reads dedup rfl trivial
    · exact .reads dedup rfl (placed_start req)
  | fetching =>
    rw [next]
    split
    · exact .reads dedup rfl trivial
    · exact .reads dedup rfl trivial
  | resolvingArtist =>
    rw [next]
    split
    · exact .reads dedup rfl trivial
    · exact .reads dedup rfl trivial
  | readingArtist => exact .reads dedup rfl trivial
  | resolvingAlbum =>
    rw [next]
    split
    · exact .reads dedup rfl trivial
    · exact .reads dedup rfl trivial
  | readingAlbum => exact .reads dedup rfl trivial
  | seekingArtist => exact goes_seekingArtist dedup
  | creatingArtist => exact goes_creatingArtist dedup fits
  | findingGenre => exact goes_findingGenre dedup placed
  | seekingAlbum => exact goes_seekingAlbum dedup placed
  | upgradingAlbum => exact goes_upgradingAlbum dedup placed
  | creatingAlbum => exact goes_creatingAlbum dedup placed
  | linkingAlbum => exact goes_linkingAlbum dedup placed fits
  | creatingSong => exact goes_creatingSong dedup placed
  | findingSong =>
    rw [next]
    split
    · exact .reads dedup rfl trivial
    · exact .reads dedup rfl trivial
  | linkingArtistSong => exact goes_linkingArtistSong dedup placed fits
  | linkingAlbumSong => exact goes_linkingAlbumSong dedup placed fits
  | linkingArtistAlbum => exact goes_linkingArtistAlbum dedup placed
  | returned response =>
    rw [next_returned]
    exact .reads dedup rfl trivial

end Steps

end Call

namespace Imports

/-- The library holds every song once, and once all calls have returned no song is half imported. -/
structure Imported (s : Imports) : Prop where
  dedup : s.library.Deduplicated
  linked : s.Returned → s.library.AllLinked

def Fits : ImportOp → Imports → Prop
  | .run place answer, s => ∀ call ∈ s.calls[place]?, call.undisturbed s.library answer = true
  | .enter .., _ => True

instance : (op : ImportOp) → (s : Imports) → Decidable (Fits op s)
  | .run _ _, _ => inferInstanceAs (Decidable (∀ call ∈ _, _))
  | .enter _ _, _ => .isTrue trivial

structure Sound (s : Imports) : Prop where
  dedup : s.library.Deduplicated
  placed : ∀ call ∈ s.calls, call.Placed s.library
  linked : ∀ song ∈ s.library.songs, song.deleted = false →
    s.library.Linked song.id ∨ ∃ call ∈ s.calls, call.awaits = some song.id

variable {s : Imports}

theorem Sound.run (sound : s.Sound) {place : Nat} {call : Call}
    (there : s.calls[place]? = some call) {result : Library × Call} (goes : Call.Goes s.library call result) :
    Sound ⟨result.1, s.calls.modify place fun _ => result.2⟩ := by
  refine ⟨goes.dedup, fun other listed => ?_, fun song present live => ?_⟩
  · rcases mem_modify there listed with before | rfl
    · exact (sound.placed other before).mono goes.more
    · exact goes.placed
  · have now (awaited : result.2.awaits = some song.id) :
        ∃ other ∈ s.calls.modify place fun _ => result.2, other.awaits = some song.id :=
      ⟨result.2, mem_modify_self (f := fun _ => result.2) there, awaited⟩
    rcases goes.new song present with before | awaited
    · rcases sound.linked song before live with linked | ⟨other, listed, awaited⟩
      · exact .inl (linked.mono goes.more)
      · by_cases done : result.1.Linked song.id
        · exact .inl done
        · refine .inr (exists_modify there (fun awaited => ?_) ⟨other, listed, awaited⟩)
          exact (goes.kept song.id awaited).resolve_right done
    · exact .inr (now awaited)

theorem Sound.step (op : ImportOp) (s : Imports) (fits : Fits op s) (sound : s.Sound) :
    (step op s).Sound := by
  cases op with
  | enter skipDuplicates req =>
    refine ⟨sound.dedup, fun call listed => ?_, fun song there live => ?_⟩
    · rcases List.mem_append.mp listed with before | new
      · exact sound.placed call before
      · rw [List.mem_singleton.mp new]
        exact Call.placed_enter skipDuplicates req
    · rcases sound.linked song there live with linked | ⟨call, listed, awaited⟩
      · exact .inl linked
      · exact .inr ⟨call, List.mem_append_left _ listed, awaited⟩
  | run place answer =>
    rw [Imports.step]
    split
    · exact sound
    · rename_i call there
      have placed := sound.placed call (List.mem_of_getElem? there)
      exact sound.run there (Call.goes sound.dedup placed (fits call there))

theorem Sound.imported (sound : s.Sound) : s.Imported := by
  refine ⟨sound.dedup, fun returned song there live => ?_⟩
  rcases sound.linked song there live with linked | ⟨call, listed, awaited⟩
  · exact linked
  · have ended := returned call listed
    unfold Call.isReturned at ended
    split at ended
    · cases awaited
    · cases ended

/-- Whatever imports run, and however their statements interleave and fail, the library stays free
of duplicates and of half-imported songs, if what a call creates was not brought in by another
since it looked, and linking a new song does not fail. -/
theorem imports_kept (start : Library) (dedup : start.Deduplicated) (linked : start.AllLinked)
    (ops : List ImportOp) (fits : Meets step Fits ops ⟨start, []⟩) :
    (runAll step ops ⟨start, []⟩).Imported := by
  have sound : Sound ⟨start, []⟩ :=
    ⟨dedup, fun call => nofun, fun song there live => .inl (linked song there live)⟩
  exact (fits.keeps Sound.step sound).imported

def request (blob : String) : ImportSongRequest :=
  ⟨blob, "Harvest Moon", some "Neil Young", none, none, 1, 1, none, false⟩

def answer (id : String) : Answer := ⟨true, 0, id, false⟩

def whole (place : Nat) : List ImportOp :=
  ["", "a", "", "b", "", "s", "", "", ""].map fun id => .run place (answer id)

theorem imports_kept_one_by_one :
    (runAll step (ImportOp.enter true (request "x") :: whole 0 ++ ImportOp.enter true (request "y") :: [
      ImportOp.run 1 (answer ""), ImportOp.run 1 (answer ""), ImportOp.run 1 (answer "t"), ImportOp.run 1 (answer ""),
      ImportOp.run 1 (answer ""), ImportOp.run 1 (answer "")]) ⟨.empty, []⟩).Imported :=
  imports_kept .empty ⟨nofun, nofun, fun _ => nofun⟩ nofun _ (by decide)

/-- Two imports of one artist's songs that look for the artist before either has created it. -/
def race : List ImportOp :=
  [.enter true (request "x"), .enter true (request "y"), .run 0 (answer ""), .run 1 (answer ""),
    .run 0 (answer "a"), .run 1 (answer "b")]

/-- The song is inserted, its link to the artist fails, and the import is tried again. -/
def retried : List ImportOp :=
  ImportOp.enter true (request "x") :: (["", "a", "", "b", "", "s"].map fun id => ImportOp.run 0 (answer id)) ++
    ImportOp.run 0 ⟨false, 0, "", false⟩ :: ImportOp.enter true (request "x") ::
    List.replicate 8 (ImportOp.run 1 (answer "t"))

theorem imports_not_kept : ¬ (∀ (start : Library), start.Deduplicated → start.AllLinked →
    ∀ ops, (runAll step ops ⟨start, []⟩).Imported) ∧
    ¬ (runAll step race ⟨.empty, []⟩).library.Deduplicated ∧
    (runAll step retried ⟨.empty, []⟩).Returned ∧
    (runAll step retried ⟨.empty, []⟩).calls[1]?.any (fun call => match call with
      | .returned response => response = existingSong "s" none none
      | _ => false) = true ∧
    ¬ (runAll step retried ⟨.empty, []⟩).library.AllLinked := by
  have twice : ¬ (runAll step race ⟨.empty, []⟩).library.Deduplicated := by
    intro dedup
    have same := dedup.artists ⟨"a", "Neil Young", false⟩
      (show _ ∈ (runAll step race ⟨.empty, []⟩).library.artists.rows by decide)
      ⟨"b", "Neil Young", false⟩
      (show _ ∈ (runAll step race ⟨.empty, []⟩).library.artists.rows by decide)
      rfl rfl rfl
    exact absurd same (by decide)
  refine ⟨fun kept => ?_, twice, by decide, by decide, fun linked => ?_⟩
  · exact twice (kept .empty ⟨nofun, nofun, fun _ => nofun⟩ nofun race).dedup
  · have song := linked ⟨"s", "x", "Harvest Moon", 1, 1, none, false⟩
      (show _ ∈ (runAll step retried ⟨.empty, []⟩).library.songs.rows by decide) rfl
    obtain ⟨artist, _, link⟩ := song.artist
    have none : (runAll step retried ⟨.empty, []⟩).library.artistSongz = [] := by decide
    rw [none] at link
    cases link

end Imports

end Tomb.Grimoire.Music.Crud
