import Mathlib.Data.List.Sort
import Mathlib.Order.Basic
import Mathlib.Data.String.Basic
import Tomb.Lib.Runs
import Tomb.Grimoire.Maintenance.Library

/-! The cleanups of what nothing refers to, and which links each of them looks at. -/
namespace Tomb.Grimoire.Maintenance
open Tomb.Lib

structure Summary where
  (found deleted : Nat)
  names : List String

def deleteEach (delete : Library → String → Option Library) :
    List Named → Library × Nat → Library × Nat
  | [], done => done
  | row :: rest, (lib, deleted) =>
    match delete lib row.id with
    | some lib => deleteEach delete rest (lib, (deleted + 1) % 2 ^ 32)
    | none => deleteEach delete rest (lib, deleted)

def cleanup (delete : Library → String → Option Library) (orphans : List Named) (dryRun : Bool)
    (lib : Library) : Library × Summary :=
  let orphans := orphans.insertionSort fun a b => a.name ≤ b.name
  let names := orphans.map (·.name)
  let found := orphans.length % 2 ^ 32
  let (lib, deleted) := if dryRun then (lib, 0) else deleteEach delete orphans (lib, 0)
  (lib, ⟨found, deleted, names⟩)

namespace Library

variable (lib : Library)

def orphanedTags : List Named :=
  lib.tagz.filter fun tag => tag.id ∉ lib.albumTagz.map (·.tagId)

def isGenre (taxon : Taxon) : Bool :=
  lib.taxonKindz.any fun kind => kind.id = taxon.kindId && kind.slug = "genre"

def hasOtherKind (taxon : Taxon) : Bool :=
  lib.taxonKindz.any fun kind => kind.id = taxon.kindId && kind.slug ≠ "genre"

def orphanedGenres : List Named :=
  (lib.taxonz.filter fun taxon =>
    lib.isGenre taxon && taxon.id ∉ lib.albumTaxonz.map (·.taxonId)).map fun taxon =>
      ⟨taxon.id, taxon.label⟩

def orphanedArtists : List Named :=
  lib.artistz.filter fun artist =>
    artist.id ∉ lib.artistAlbumz.map (·.artistId) && artist.id ∉ lib.artistSongz.map (·.artistId) &&
      artist.id ∉ lib.videoz.filterMap (·.artistId)

def orphanedAlbums : List Named :=
  lib.albumz.filter fun album =>
    album.id ∉ lib.albumSongz.map (·.albumId) && album.id ∉ lib.videoz.filterMap (·.albumId)

def orphanedVideoSeries : List Named :=
  lib.videoSeriez.filter fun series => series.id ∉ lib.videoz.filterMap (·.seriesId)

def orphanedTaxons : List Named :=
  (lib.taxonz.filter fun taxon =>
    lib.hasOtherKind taxon && taxon.id ∉ lib.albumTaxonz.map (·.taxonId) &&
      taxon.id ∉ lib.entityTaxonz.map (·.taxonId)).map fun taxon => ⟨taxon.id, taxon.label⟩

end Library

def cleanupOrphanedTags (dryRun : Bool) (lib : Library) : Library × Summary :=
  cleanup Library.deleteTag lib.orphanedTags dryRun lib

def cleanupOrphanedGenres (dryRun : Bool) (lib : Library) : Library × Summary :=
  cleanup Library.deleteTaxon lib.orphanedGenres dryRun lib

def cleanupOrphanedArtists (dryRun : Bool) (lib : Library) : Library × Summary :=
  cleanup Library.deleteArtist lib.orphanedArtists dryRun lib

def cleanupOrphanedAlbums (dryRun : Bool) (lib : Library) : Library × Summary :=
  cleanup Library.deleteAlbum lib.orphanedAlbums dryRun lib

def cleanupOrphanedVideoSeries (dryRun : Bool) (lib : Library) : Library × Summary :=
  cleanup Library.deleteSeries lib.orphanedVideoSeries dryRun lib

def cleanupOrphanedTaxons (dryRun : Bool) (lib : Library) : Library × Summary :=
  cleanup Library.deleteTaxon lib.orphanedTaxons dryRun lib

inductive Cleanup where
  | tags
  | genres
  | artists
  | albums
  | videoSeries
  | taxons

def Cleanup.run : Cleanup → Bool → Library → Library × Summary
  | .tags => cleanupOrphanedTags
  | .genres => cleanupOrphanedGenres
  | .artists => cleanupOrphanedArtists
  | .albums => cleanupOrphanedAlbums
  | .videoSeries => cleanupOrphanedVideoSeries
  | .taxons => cleanupOrphanedTaxons

def Cleanup.apply (which : Cleanup) (lib : Library) : Library := (which.run false lib).1

/-! What the links of the library say, whichever table keeps them. -/

namespace Library

variable (lib : Library)

/-- A link to an entity counts while the entity is there: nothing in the schema removes it. -/
def TagLinked (id : String) : Prop :=
  (∃ row ∈ lib.albumTagz, row.tagId = id) ∨
    ∃ row ∈ lib.entityTagz, row.tagId = id ∧ lib.hasEntity row.entityType row.entityId = true

def TaxonLinked (id : String) : Prop :=
  (∃ row ∈ lib.albumTaxonz, row.taxonId = id) ∨
    ∃ row ∈ lib.entityTaxonz, row.taxonId = id ∧ lib.hasEntity row.entityType row.entityId = true

def ArtistLinked (id : String) : Prop :=
  (∃ row ∈ lib.artistAlbumz, row.artistId = id) ∨ (∃ row ∈ lib.artistSongz, row.artistId = id) ∨
    ∃ video ∈ lib.videoz, video.artistId = some id

def AlbumLinked (id : String) : Prop :=
  (∃ row ∈ lib.albumSongz, row.albumId = id) ∨ ∃ video ∈ lib.videoz, video.albumId = some id

/-- A video belongs to a series by itself or through its season. -/
def SeriesLinked (id : String) : Prop :=
  ∃ video ∈ lib.videoz, video.seriesId = some id ∨
    ∃ season ∈ lib.videoSeasonz, video.seasonId = some season.id ∧ season.seriesId = id

end Library

/-- Nothing that is linked is gone, nor is a link of anything that is still there. -/
structure OnlyOrphans (lib after : Library) : Prop where
  tags : ∀ tag ∈ lib.tagz, lib.TagLinked tag.id → tag ∈ after.tagz
  taxons : ∀ taxon ∈ lib.taxonz, lib.TaxonLinked taxon.id → taxon ∈ after.taxonz
  artists : ∀ artist ∈ lib.artistz, lib.ArtistLinked artist.id → artist ∈ after.artistz
  albums : ∀ album ∈ lib.albumz, lib.AlbumLinked album.id → album ∈ after.albumz
  series : ∀ series ∈ lib.videoSeriez, lib.SeriesLinked series.id → series ∈ after.videoSeriez
  artistAlbums : ∀ row ∈ lib.artistAlbumz, row ∈ after.artistAlbumz
  artistSongs : ∀ row ∈ lib.artistSongz, row ∈ after.artistSongz
  albumSongs : ∀ row ∈ lib.albumSongz, row ∈ after.albumSongz
  albumTags : ∀ row ∈ lib.albumTagz, row ∈ after.albumTagz
  albumTaxons : ∀ row ∈ lib.albumTaxonz, (∃ album ∈ after.albumz, album.id = row.albumId) →
    row ∈ after.albumTaxonz
  entityTags : ∀ row ∈ lib.entityTagz, after.hasEntity row.entityType row.entityId = true →
    row ∈ after.entityTagz
  entityTaxons : ∀ row ∈ lib.entityTaxonz, after.hasEntity row.entityType row.entityId = true →
    row ∈ after.entityTaxonz
  videos : ∀ video ∈ lib.videoz, video ∈ after.videoz

theorem OnlyOrphans.refl (lib : Library) : OnlyOrphans lib lib := by
  constructor <;> intros <;> assumption

/-- The links that a cleanup does not look at are all there a second time where it looks. -/
def Covered : Cleanup → Library → Prop
  | .tags, lib => ∀ row ∈ lib.entityTagz, lib.hasEntity row.entityType row.entityId = true →
      row.tagId ∈ lib.tagz.map (·.id) → row.tagId ∈ lib.albumTagz.map (·.tagId)
  | .genres, lib => ∀ row ∈ lib.entityTaxonz, lib.hasEntity row.entityType row.entityId = true →
      ∀ taxon ∈ lib.taxonz, taxon.id = row.taxonId → lib.isGenre taxon = true →
        row.taxonId ∈ lib.albumTaxonz.map (·.taxonId)
  | .videoSeries, lib => ∀ video ∈ lib.videoz, ∀ season ∈ lib.videoSeasonz,
      video.seasonId = some season.id → season.seriesId ∈ lib.videoSeriez.map (·.id) →
        season.seriesId ∈ lib.videoz.filterMap (·.seriesId)
  | .artists, _ | .albums, _ | .taxons, _ => True

section Deletions

variable {delete : Library → String → Option Library} {rows : List Named}

variable {lib : Library}

theorem deleteEach_keeps {inv : Library → Prop}
    (keeps : ∀ row ∈ rows, ∀ lib next, inv lib → delete lib row.id = some next → inv next) (n : Nat) (start : inv lib) : inv (deleteEach delete rows (lib, n)).1 := by
  induction rows generalizing lib n with
  | nil => exact start
  | cons row rest ih =>
    have later := fun other member => keeps other (List.mem_cons_of_mem row member)
    unfold deleteEach
    split
    · rename_i next deleted
      exact ih later _ (keeps row List.mem_cons_self lib next start deleted)
    · exact ih later _ start

theorem deleteEach_reaches {inv post : Library → Prop}
    (total : ∀ row ∈ rows, ∀ lib, inv lib → ∃ next, delete lib row.id = some next ∧ inv next)
    (keeps : ∀ row ∈ rows, ∀ lib next, post lib → delete lib row.id = some next → post next)
    {row : Named} (member : row ∈ rows)
    (brings : ∀ lib next, inv lib → delete lib row.id = some next → post next) (n : Nat) (start : inv lib) : post (deleteEach delete rows (lib, n)).1 := by
  induction rows generalizing lib n with
  | nil => cases member
  | cons head rest ih =>
    obtain ⟨next, deleted, kept⟩ := total head List.mem_cons_self lib start
    unfold deleteEach
    rw [deleted]
    have laterKeeps := fun other member => keeps other (List.mem_cons_of_mem head member)
    rcases List.mem_cons.mp member with same | later
    · subst same
      exact deleteEach_keeps laterKeeps _ (brings lib next start deleted)
    · have laterTotal := fun other member => total other (List.mem_cons_of_mem head member)
      exact ih laterTotal laterKeeps later _ kept

theorem cleanup_false (orphans : List Named) (lib : Library) :
    (cleanup delete orphans false lib).1 =
      (deleteEach delete (orphans.insertionSort fun a b => a.name ≤ b.name) (lib, 0)).1 := rfl

theorem cleanup_keeps (inv : Library → Prop) {orphans : List Named}
    (keeps : ∀ row ∈ orphans, ∀ now next, inv now → delete now row.id = some next → inv next)
    (start : inv lib) : inv (cleanup delete orphans false lib).1 := by
  rw [cleanup_false]
  apply deleteEach_keeps _ 0 start
  intro row member
  exact keeps row ((List.mem_insertionSort _).mp member)

theorem cleanup_reaches (inv post : Library → Prop) {orphans : List Named}
    (total : ∀ row ∈ orphans, ∀ now, inv now → ∃ next, delete now row.id = some next ∧ inv next)
    (keeps : ∀ row ∈ orphans, ∀ now next, post now → delete now row.id = some next → post next)
    {row : Named} (member : row ∈ orphans)
    (brings : ∀ now next, inv now → delete now row.id = some next → post next)
    (start : inv lib) : post (cleanup delete orphans false lib).1 := by
  rw [cleanup_false]
  have sorted : ∀ other, other ∈ orphans.insertionSort (fun a b => a.name ≤ b.name) →
      other ∈ orphans := fun other => (List.mem_insertionSort _).mp
  exact deleteEach_reaches (fun other listed => total other (sorted other listed))
    (fun other listed => keeps other (sorted other listed))
    ((List.mem_insertionSort _).mpr member) brings 0 start

theorem dry_run_changes_nothing (which : Cleanup) (lib : Library) : (which.run true lib).1 = lib := by
  cases which <;> rfl

end Deletions

def Spared (orphans : List Named) (id : String) : Prop := ∀ orphan ∈ orphans, orphan.id ≠ id

section Orphans

variable {lib : Library} {id : String} {row : Named}

theorem mem_orphanedTags : row ∈ lib.orphanedTags ↔
    row ∈ lib.tagz ∧ ∀ link ∈ lib.albumTagz, link.tagId ≠ row.id := by
  simp [Library.orphanedTags]

theorem mem_orphanedGenres : row ∈ lib.orphanedGenres ↔
    ∃ taxon ∈ lib.taxonz, lib.isGenre taxon = true ∧
      (∀ link ∈ lib.albumTaxonz, link.taxonId ≠ taxon.id) ∧ ⟨taxon.id, taxon.label⟩ = row := by
  simp [Library.orphanedGenres, and_assoc]

theorem mem_orphanedTaxons : row ∈ lib.orphanedTaxons ↔
    ∃ taxon ∈ lib.taxonz, lib.hasOtherKind taxon = true ∧
      (∀ link ∈ lib.albumTaxonz, link.taxonId ≠ taxon.id) ∧
      (∀ link ∈ lib.entityTaxonz, link.taxonId ≠ taxon.id) ∧ ⟨taxon.id, taxon.label⟩ = row := by
  simp [Library.orphanedTaxons, and_assoc]

theorem mem_orphanedArtists : row ∈ lib.orphanedArtists ↔
    row ∈ lib.artistz ∧ (∀ link ∈ lib.artistAlbumz, link.artistId ≠ row.id) ∧
      (∀ link ∈ lib.artistSongz, link.artistId ≠ row.id) ∧
        ∀ video ∈ lib.videoz, video.artistId ≠ some row.id := by
  simp [Library.orphanedArtists, and_assoc]

theorem mem_orphanedAlbums : row ∈ lib.orphanedAlbums ↔
    row ∈ lib.albumz ∧ (∀ link ∈ lib.albumSongz, link.albumId ≠ row.id) ∧
      ∀ video ∈ lib.videoz, video.albumId ≠ some row.id := by
  simp [Library.orphanedAlbums]

theorem mem_orphanedVideoSeries : row ∈ lib.orphanedVideoSeries ↔
    row ∈ lib.videoSeriez ∧ ∀ video ∈ lib.videoz, video.seriesId ≠ some row.id := by
  simp [Library.orphanedVideoSeries]

end Orphans

section Tags

variable {lib : Library}

/-- The deletion of an orphaned tag: no album has it, so nothing refuses. -/
structure TagsCleaned (lib now : Library) : Prop where
  frame : now = { lib with tagz := now.tagz, entityTagz := now.entityTagz }
  tags : ∀ tag ∈ lib.tagz, Spared lib.orphanedTags tag.id → tag ∈ now.tagz
  rows : ∀ row ∈ lib.entityTagz, Spared lib.orphanedTags row.tagId → row ∈ now.entityTagz

theorem deleteTag_orphan {now : Library} {row : Named} (orphan : row ∈ lib.orphanedTags)
    (same : now.albumTagz = lib.albumTagz) : now.deleteTag row.id = some { now with
      tagz := now.tagz.filter (·.id ≠ row.id)
      entityTagz := now.entityTagz.filter (·.tagId ≠ row.id) } := by
  have unlinked := (mem_orphanedTags.mp orphan).2
  have free : ¬ now.albumTagz.any (·.tagId = row.id) := by
    rw [same]
    simpa using unlinked
  unfold Library.deleteTag
  rw [if_neg free]

theorem tags_cleaned (lib : Library) : TagsCleaned lib (Cleanup.tags.apply lib) := by
  apply cleanup_keeps (TagsCleaned lib)
  · intro row orphan now next cleaned deleted
    have albums : now.albumTagz = lib.albumTagz := by rw [cleaned.frame]
    rw [deleteTag_orphan orphan albums] at deleted
    cases Option.some.inj deleted
    constructor
    · rw [cleaned.frame]
    · intro tag member spared
      simpa using ⟨cleaned.tags tag member spared, (spared row orphan).symm⟩
    · intro link member spared
      simpa using ⟨cleaned.rows link member spared, (spared row orphan).symm⟩
  · exact ⟨rfl, fun _ member _ => member, fun _ member _ => member⟩

theorem tag_rows_gone {orphan : Named} (member : orphan ∈ lib.orphanedTags) {row : EntityTag}
    (names : row.tagId = orphan.id) : row ∉ (Cleanup.tags.apply lib).entityTagz := by
  apply cleanup_reaches (fun now => now.albumTagz = lib.albumTagz)
    (fun now => row ∉ now.entityTagz)
  · intro other listed now same
    exact ⟨_, deleteTag_orphan listed same, same⟩
  · intro other listed now next absent deleted
    unfold Library.deleteTag at deleted
    split at deleted
    · cases deleted
    · cases Option.some.inj deleted
      exact fun still => absent (List.mem_of_mem_filter still)
  · exact member
  · intro now next same deleted
    rw [deleteTag_orphan member same] at deleted
    cases Option.some.inj deleted
    simp [names]
  · rfl

theorem tags_onlyOrphans_iff :
    OnlyOrphans lib (Cleanup.tags.apply lib) ↔ Covered .tags lib := by
  have cleaned := tags_cleaned lib
  constructor
  · intro only row member entity listed
    by_contra unlinked
    obtain ⟨tag, tagMember, same⟩ := List.mem_map.mp listed
    have orphan : tag ∈ lib.orphanedTags := by
      refine mem_orphanedTags.mpr ⟨tagMember, ?_⟩
      intro link linkMember names
      exact unlinked (List.mem_map.mpr ⟨link, linkMember, names.trans same⟩)
    apply tag_rows_gone orphan same.symm
    apply only.entityTags row member
    rw [cleaned.frame]
    exact entity
  · intro covered
    have spared : ∀ id, lib.TagLinked id → Spared lib.orphanedTags id := by
      intro id linked orphan listed same
      obtain ⟨tagMember, unlinked⟩ := mem_orphanedTags.mp listed
      rcases linked with ⟨link, member, names⟩ | ⟨link, member, names, entity⟩
      · exact unlinked link member (names.trans same.symm)
      · have known : link.tagId ∈ lib.tagz.map (·.id) :=
          List.mem_map.mpr ⟨orphan, tagMember, same.trans names.symm⟩
        obtain ⟨row, rowMember, rowNames⟩ := List.mem_map.mp (covered link member entity known)
        exact unlinked row rowMember (rowNames.trans (names.trans same.symm))
    have rows : ∀ row ∈ lib.entityTagz,
        lib.hasEntity row.entityType row.entityId = true → row ∈ (Cleanup.tags.apply lib).entityTagz :=
      fun row member entity => cleaned.rows row member (spared _ (.inr ⟨row, member, rfl, entity⟩))
    have tags := fun tag member linked => cleaned.tags tag member (spared tag.id linked)
    rw [cleaned.frame]
    exact { OnlyOrphans.refl lib with tags, entityTags := rows }

end Tags

section Taxons

variable {lib : Library} {orphans : List Named}

/-- The deletion of taxons, genres or not: every link of theirs goes with them. -/
structure TaxonsCleaned (orphans : List Named) (lib now : Library) : Prop where
  frame : now = { lib with
    taxonz := now.taxonz
    albumTaxonz := now.albumTaxonz
    entityTaxonz := now.entityTaxonz }
  taxons : ∀ taxon ∈ lib.taxonz, Spared orphans taxon.id → taxon ∈ now.taxonz
  albumRows : ∀ row ∈ lib.albumTaxonz, Spared orphans row.taxonId → row ∈ now.albumTaxonz
  entityRows : ∀ row ∈ lib.entityTaxonz, Spared orphans row.taxonId → row ∈ now.entityTaxonz

theorem taxons_cleaned (orphans : List Named) (lib : Library) :
    TaxonsCleaned orphans lib (cleanup Library.deleteTaxon orphans false lib).1 := by
  apply cleanup_keeps (TaxonsCleaned orphans lib)
  · intro row orphan now next cleaned deleted
    cases Option.some.inj deleted
    constructor
    · rw [cleaned.frame]
    · intro taxon member spared
      simpa using ⟨cleaned.taxons taxon member spared, (spared row orphan).symm⟩
    · intro link member spared
      simpa using ⟨cleaned.albumRows link member spared, (spared row orphan).symm⟩
    · intro link member spared
      simpa using ⟨cleaned.entityRows link member spared, (spared row orphan).symm⟩
  · constructor
    · rfl
    · exact fun _ member _ => member
    · exact fun _ member _ => member
    · exact fun _ member _ => member

theorem taxon_rows_gone {orphan : Named} (member : orphan ∈ orphans) {row : EntityTaxon}
    (names : row.taxonId = orphan.id) :
    row ∉ (cleanup Library.deleteTaxon orphans false lib).1.entityTaxonz := by
  apply cleanup_reaches (fun _ => True) (fun now => row ∉ now.entityTaxonz)
  · intro other listed now _
    exact ⟨_, rfl, trivial⟩
  · intro other listed now next absent deleted
    cases Option.some.inj deleted
    exact fun still => absent (List.mem_of_mem_filter still)
  · exact member
  · intro now next _ deleted
    cases Option.some.inj deleted
    simp [names]
  · trivial

theorem taxons_onlyOrphans (spared : ∀ id, lib.TaxonLinked id → Spared orphans id) :
    OnlyOrphans lib (cleanup Library.deleteTaxon orphans false lib).1 := by
  have cleaned := taxons_cleaned orphans lib
  have taxons := fun taxon member linked => cleaned.taxons taxon member (spared taxon.id linked)
  have albumTaxons := fun row member => cleaned.albumRows row member (spared _ (.inl ⟨row, member, rfl⟩))
  have entityTaxons := fun row member entity =>
    cleaned.entityRows row member (spared _ (.inr ⟨row, member, rfl, entity⟩))
  rw [cleaned.frame]
  exact { OnlyOrphans.refl lib with
    taxons
    albumTaxons := fun row member _ => albumTaxons row member
    entityTaxons }

theorem genres_onlyOrphans_iff :
    OnlyOrphans lib (Cleanup.genres.apply lib) ↔ Covered .genres lib := by
  constructor
  · intro only row member entity taxon taxonMember same genre
    by_contra unlinked
    have orphan : ⟨taxon.id, taxon.label⟩ ∈ lib.orphanedGenres := by
      refine mem_orphanedGenres.mpr ⟨taxon, taxonMember, genre, ?_, rfl⟩
      intro link linkMember names
      exact unlinked (List.mem_map.mpr ⟨link, linkMember, names.trans same⟩)
    have gone : row ∉ (Cleanup.genres.apply lib).entityTaxonz := taxon_rows_gone orphan same.symm
    apply gone
    apply only.entityTaxons row member
    have cleaned : TaxonsCleaned _ lib (Cleanup.genres.apply lib) := taxons_cleaned _ lib
    rw [cleaned.frame]
    exact entity
  · intro covered
    apply taxons_onlyOrphans
    intro id linked orphan listed same
    obtain ⟨genre, genreMember, isGenre, unlinked, rfl⟩ := mem_orphanedGenres.mp listed
    rcases linked with ⟨link, member, names⟩ | ⟨link, member, names, entity⟩
    · exact unlinked link member (names.trans same.symm)
    · have shared := covered link member entity genre genreMember (same.trans names.symm) isGenre
      obtain ⟨row, rowMember, rowNames⟩ := List.mem_map.mp shared
      exact unlinked row rowMember (rowNames.trans (names.trans same.symm))

theorem taxons_cleanup_onlyOrphans (lib : Library) :
    OnlyOrphans lib (Cleanup.taxons.apply lib) := by
  apply taxons_onlyOrphans
  intro id linked orphan listed same
  obtain ⟨taxon, -, -, noAlbum, noEntity, rfl⟩ := mem_orphanedTaxons.mp listed
  rcases linked with ⟨link, member, names⟩ | ⟨link, member, names, -⟩
  · exact noAlbum link member (names.trans same.symm)
  · exact noEntity link member (names.trans same.symm)

end Taxons

section Artists

variable {lib : Library}

structure ArtistsCleaned (lib now : Library) : Prop where
  frame : now = { lib with artistz := now.artistz }
  artists : ∀ artist ∈ lib.artistz, Spared lib.orphanedArtists artist.id → artist ∈ now.artistz

theorem deleteArtist_orphan {now next : Library} {row : Named}
    (orphan : row ∈ lib.orphanedArtists) (frame : now = { lib with artistz := now.artistz })
    (deleted : now.deleteArtist row.id = some next) :
    next = { now with artistz := now.artistz.filter (·.id ≠ row.id) } := by
  obtain ⟨-, -, noSong, noVideo⟩ := mem_orphanedArtists.mp orphan
  unfold Library.deleteArtist at deleted
  split at deleted
  · cases deleted
  · rw [← Option.some.inj deleted]
    have songs : now.artistSongz.filter (·.artistId ≠ row.id) = now.artistSongz := by
      rw [frame]
      apply List.filter_eq_self.mpr
      intro link member
      exact decide_eq_true (noSong link member)
    have videos : (now.videoz.map fun video =>
        if video.artistId = some row.id then { video with artistId := none } else video) =
          now.videoz := by
      rw [frame]
      refine (List.map_congr_left ?_).trans (List.map_id' _)
      intro video member
      exact if_neg (noVideo video member)
    rw [songs, videos]

theorem artists_cleaned (lib : Library) : ArtistsCleaned lib (Cleanup.artists.apply lib) := by
  apply cleanup_keeps (ArtistsCleaned lib)
  · intro row orphan now next cleaned deleted
    rw [deleteArtist_orphan orphan cleaned.frame deleted]
    constructor
    · rw [cleaned.frame]
    · intro artist member spared
      simpa using ⟨cleaned.artists artist member spared, (spared row orphan).symm⟩
  · exact ⟨rfl, fun _ member _ => member⟩

theorem artists_onlyOrphans (lib : Library) : OnlyOrphans lib (Cleanup.artists.apply lib) := by
  have cleaned := artists_cleaned lib
  have artists : ∀ artist ∈ lib.artistz, lib.ArtistLinked artist.id →
      artist ∈ (Cleanup.artists.apply lib).artistz := by
    intro artist member linked
    apply cleaned.artists artist member
    intro orphan listed same
    obtain ⟨-, noAlbum, noSong, noVideo⟩ := mem_orphanedArtists.mp listed
    rcases linked with ⟨link, there, names⟩ | ⟨link, there, names⟩ | ⟨video, there, names⟩
    · exact noAlbum link there (names.trans same.symm)
    · exact noSong link there (names.trans same.symm)
    · exact noVideo video there (names.trans (congrArg some same.symm))
  rw [cleaned.frame]
  exact { OnlyOrphans.refl lib with artists }

end Artists

section Albums

variable {lib : Library}

structure AlbumsCleaned (lib now : Library) : Prop where
  frame : now = { lib with albumz := now.albumz, albumTaxonz := now.albumTaxonz }
  albums : ∀ album ∈ lib.albumz, Spared lib.orphanedAlbums album.id → album ∈ now.albumz
  rows : ∀ row ∈ lib.albumTaxonz, (∃ album ∈ now.albumz, album.id = row.albumId) →
    row ∈ now.albumTaxonz

theorem deleteAlbum_orphan {now next : Library} {row : Named} (orphan : row ∈ lib.orphanedAlbums)
    (frame : now = { lib with albumz := now.albumz, albumTaxonz := now.albumTaxonz })
    (deleted : now.deleteAlbum row.id = some next) : next = { now with
      albumz := now.albumz.filter (·.id ≠ row.id)
      albumTaxonz := now.albumTaxonz.filter (·.albumId ≠ row.id) } := by
  obtain ⟨-, noSong, noVideo⟩ := mem_orphanedAlbums.mp orphan
  unfold Library.deleteAlbum at deleted
  split at deleted
  · cases deleted
  · rw [← Option.some.inj deleted]
    have songs : now.albumSongz.filter (·.albumId ≠ row.id) = now.albumSongz := by
      rw [frame]
      apply List.filter_eq_self.mpr
      intro link member
      exact decide_eq_true (noSong link member)
    have videos : (now.videoz.map fun video =>
        if video.albumId = some row.id then { video with albumId := none } else video) =
          now.videoz := by
      rw [frame]
      refine (List.map_congr_left ?_).trans (List.map_id' _)
      intro video member
      exact if_neg (noVideo video member)
    rw [songs, videos]

theorem albums_cleaned (lib : Library) : AlbumsCleaned lib (Cleanup.albums.apply lib) := by
  apply cleanup_keeps (AlbumsCleaned lib)
  · intro row orphan now next cleaned deleted
    rw [deleteAlbum_orphan orphan cleaned.frame deleted]
    constructor
    · rw [cleaned.frame]
    · intro album member spared
      simpa using ⟨cleaned.albums album member spared, (spared row orphan).symm⟩
    · intro link member ⟨album, still, names⟩
      obtain ⟨there, other⟩ := List.mem_filter.mp still
      have kept := cleaned.rows link member ⟨album, there, names⟩
      rw [names] at other
      exact List.mem_filter.mpr ⟨kept, other⟩
  · constructor
    · rfl
    · exact fun _ member _ => member
    · exact fun _ member _ => member

theorem albums_onlyOrphans (lib : Library) : OnlyOrphans lib (Cleanup.albums.apply lib) := by
  have cleaned := albums_cleaned lib
  have albums : ∀ album ∈ lib.albumz, lib.AlbumLinked album.id →
      album ∈ (Cleanup.albums.apply lib).albumz := by
    intro album member linked
    apply cleaned.albums album member
    intro orphan listed same
    obtain ⟨-, noSong, noVideo⟩ := mem_orphanedAlbums.mp listed
    rcases linked with ⟨link, there, names⟩ | ⟨video, there, names⟩
    · exact noSong link there (names.trans same.symm)
    · exact noVideo video there (names.trans (congrArg some same.symm))
  have albumTaxons := cleaned.rows
  rw [cleaned.frame]
  exact { OnlyOrphans.refl lib with albums, albumTaxons }

end Albums

section Series

variable {lib : Library}

structure SeriesCleaned (lib now : Library) : Prop where
  frame : now = { lib with videoSeriez := now.videoSeriez, videoSeasonz := now.videoSeasonz }
  series : ∀ series ∈ lib.videoSeriez, Spared lib.orphanedVideoSeries series.id →
    series ∈ now.videoSeriez
  seasons : ∀ season ∈ now.videoSeasonz, season ∈ lib.videoSeasonz

variable {now : Library}

theorem withoutSeries_of_ne {id : String} {video : Video}
    (other : video.seriesId ≠ some id) : now.withoutSeries id video = { video with
      seasonId := if video.seasonId.any (now.seasonDeleted id) then none else video.seasonId } := by
  unfold Library.withoutSeries
  rw [if_neg other]

theorem seasonDeleted_iff {id seasonId : String} : now.seasonDeleted id seasonId = true ↔
      ∃ season ∈ now.videoSeasonz, season.id = seasonId ∧ season.seriesId = id := by
  simp [Library.seasonDeleted]

theorem deleteSeries_orphan {row : Named}
    (free : ∀ video ∈ now.videoz, video.seriesId ≠ some row.id) :
    now.deleteSeries row.id = some { now with
      videoSeriez := now.videoSeriez.filter (·.id ≠ row.id)
      videoSeasonz := now.videoSeasonz.filter (·.seriesId ≠ row.id)
      videoz := now.videoz.map (now.withoutSeries row.id) } := by
  have admitted : ¬ now.seriesRefused row.id := by
    unfold Library.seriesRefused
    intro refused
    obtain ⟨video, member, bad⟩ := List.any_eq_true.mp refused
    exact free video member (of_decide_eq_true (Bool.and_eq_true_iff.mp bad).1)
  unfold Library.deleteSeries
  rw [if_neg admitted]

theorem series_cleaned (covered : Covered .videoSeries lib) :
    SeriesCleaned lib (Cleanup.videoSeries.apply lib) := by
  apply cleanup_keeps (SeriesCleaned lib)
  · intro row orphan now next cleaned deleted
    obtain ⟨listed, free⟩ := mem_orphanedVideoSeries.mp orphan
    have videoz : now.videoz = lib.videoz := by rw [cleaned.frame]
    have untouched : now.videoz.map (now.withoutSeries row.id) = now.videoz := by
      refine (List.map_congr_left ?_).trans (List.map_id' _)
      intro video member
      rw [videoz] at member
      rw [withoutSeries_of_ne (free video member)]
      have keeps : ¬ video.seasonId.any (now.seasonDeleted row.id) = true := by
        intro taken
        obtain ⟨seasonId, names, gone⟩ := (Option.any_eq_true _ _).mp taken
        obtain ⟨season, there, rfl, ofSeries⟩ := seasonDeleted_iff.mp gone
        have known : season.seriesId ∈ lib.videoSeriez.map (·.id) :=
          List.mem_map.mpr ⟨row, listed, ofSeries.symm⟩
        obtain ⟨other, otherMember, otherNames⟩ := List.mem_filterMap.mp
          (covered video member season (cleaned.seasons season there) names known)
        exact free other otherMember (otherNames.trans (congrArg some ofSeries))
      rw [if_neg keeps]
    rw [deleteSeries_orphan (by rw [videoz]; exact free), untouched] at deleted
    cases Option.some.inj deleted
    constructor
    · rw [cleaned.frame]
    · intro series member spared
      simpa using ⟨cleaned.series series member spared, (spared row orphan).symm⟩
    · intro season member
      exact cleaned.seasons season (List.mem_of_mem_filter member)
  · exact ⟨rfl, fun _ member _ => member, fun _ member => member⟩

def SeasonLeft (seasonId : String) (now : Library) : Prop :=
  ∀ video ∈ now.videoz, video.seasonId ≠ some seasonId

theorem SeasonLeft.deleteSeries {seasonId id : String} {next : Library}
    (left : SeasonLeft seasonId now) (deleted : now.deleteSeries id = some next) :
    SeasonLeft seasonId next := by
  unfold Library.deleteSeries at deleted
  split at deleted
  · cases deleted
  · cases Option.some.inj deleted
    intro video member
    obtain ⟨before, there, rfl⟩ := List.mem_map.mp member
    dsimp only [Library.withoutSeries]
    split
    · exact fun impossible => nomatch impossible
    · exact left before there

theorem deleteSeries_leaves_season {season : VideoSeason} {next : Library}
    (there : season ∈ now.videoSeasonz) (deleted : now.deleteSeries season.seriesId = some next) :
    SeasonLeft season.id next := by
  unfold Library.deleteSeries at deleted
  split at deleted
  · cases deleted
  · cases Option.some.inj deleted
    intro video member
    obtain ⟨before, -, rfl⟩ := List.mem_map.mp member
    dsimp only [Library.withoutSeries]
    split
    · exact fun impossible => nomatch impossible
    · rename_i kept
      intro names
      have gone := seasonDeleted_iff.mpr ⟨season, there, rfl, rfl⟩
      exact kept (by rw [names]; exact gone)

def NamesNone (orphans : List Named) (now : Library) : Prop :=
  ∀ video ∈ now.videoz, ∀ series ∈ orphans, video.seriesId ≠ some series.id

theorem season_left {orphan : Named} (member : orphan ∈ lib.orphanedVideoSeries)
    {season : VideoSeason} (there : season ∈ lib.videoSeasonz)
    (ofSeries : season.seriesId = orphan.id) :
    SeasonLeft season.id (Cleanup.videoSeries.apply lib) := by
  apply cleanup_reaches (fun now => NamesNone lib.orphanedVideoSeries now ∧
      (season ∈ now.videoSeasonz ∨ SeasonLeft season.id now))
    (SeasonLeft season.id)
  · intro other listed now ⟨freeNow, state⟩
    have deleted := deleteSeries_orphan fun video there => freeNow video there other listed
    refine ⟨_, deleted, ?_, ?_⟩
    · intro video videoMember series seriesMember
      obtain ⟨before, beforeMember, rfl⟩ := List.mem_map.mp videoMember
      rw [withoutSeries_of_ne (freeNow before beforeMember other listed)]
      exact freeNow before beforeMember series seriesMember
    · rcases state with stays | left
      · by_cases same : season.seriesId = other.id
        · right
          rw [← same] at deleted
          rw [← same]
          exact deleteSeries_leaves_season stays deleted
        · left
          exact List.mem_filter.mpr ⟨stays, decide_eq_true same⟩
      · exact .inr (left.deleteSeries deleted)
  · intro other listed now next left deleted
    exact left.deleteSeries deleted
  · exact member
  · intro now next ⟨_, state⟩ deleted
    rcases state with stays | left
    · rw [← ofSeries] at deleted
      exact deleteSeries_leaves_season stays deleted
    · exact left.deleteSeries deleted
  · refine ⟨?_, .inl there⟩
    intro video videoMember other listed
    exact (mem_orphanedVideoSeries.mp listed).2 video videoMember

theorem series_onlyOrphans_iff :
    OnlyOrphans lib (Cleanup.videoSeries.apply lib) ↔ Covered .videoSeries lib := by
  constructor
  · intro only video videoMember season there names known
    by_contra unlinked
    obtain ⟨series, listed, same⟩ := List.mem_map.mp known
    have orphan : series ∈ lib.orphanedVideoSeries := by
      refine mem_orphanedVideoSeries.mpr ⟨listed, ?_⟩
      intro other otherMember otherNames
      exact unlinked (List.mem_filterMap.mpr
        ⟨other, otherMember, otherNames.trans (congrArg some same)⟩)
    exact season_left orphan there same.symm video (only.videos video videoMember) names
  · intro covered
    have cleaned := series_cleaned covered
    have series : ∀ series ∈ lib.videoSeriez, lib.SeriesLinked series.id →
        series ∈ (Cleanup.videoSeries.apply lib).videoSeriez := by
      intro series member ⟨video, there, linked⟩
      apply cleaned.series series member
      intro orphan listed same
      obtain ⟨known, free⟩ := mem_orphanedVideoSeries.mp listed
      rcases linked with names | ⟨season, seasonMember, names, ofSeries⟩
      · exact free video there (names.trans (congrArg some same.symm))
      · have found := covered video there season seasonMember names
          (List.mem_map.mpr ⟨orphan, known, same.trans ofSeries.symm⟩)
        obtain ⟨other, otherMember, otherNames⟩ := List.mem_filterMap.mp found
        exact free other otherMember
          (otherNames.trans (congrArg some (ofSeries.trans same.symm)))
    rw [cleaned.frame]
    exact { OnlyOrphans.refl lib with
      series
      entityTags := fun _ member _ => member
      entityTaxons := fun _ member _ => member }

end Series

theorem apply_onlyOrphans_iff (which : Cleanup) (lib : Library) :
    OnlyOrphans lib (which.apply lib) ↔ Covered which lib := by
  cases which with
  | tags => exact tags_onlyOrphans_iff
  | genres => exact genres_onlyOrphans_iff
  | artists => exact iff_of_true (artists_onlyOrphans lib) trivial
  | albums => exact iff_of_true (albums_onlyOrphans lib) trivial
  | videoSeries => exact series_onlyOrphans_iff
  | taxons => exact iff_of_true (taxons_cleanup_onlyOrphans lib) trivial

/-- In every order of the cleanups, each of them deletes orphans only if and only if it finds the
links that it does not look at where it looks. -/
theorem cleanups_delete_only_orphans_iff (order : List Cleanup) (lib : Library) :
    Meets Cleanup.apply (fun which now => OnlyOrphans now (which.apply now)) order lib ↔
      Meets Cleanup.apply Covered order lib :=
  ⟨.imp fun which now => (apply_onlyOrphans_iff which now).mp,
    .imp fun which now => (apply_onlyOrphans_iff which now).mpr⟩

def videoLibrary : Library where
  tagz := [⟨"tag", "live"⟩]
  taxonKindz := [⟨"kind", "genre"⟩]
  taxonz := [⟨"genre", "kind", "documentary"⟩]
  videoSeriez := [⟨"old", "Old"⟩, ⟨"new", "New"⟩]
  videoSeasonz := [⟨"season", "old"⟩]
  videoz := [⟨"video", some "new", some "season", none, none⟩]
  entityTagz := [⟨.video, "video", "tag"⟩]
  entityTaxonz := [⟨.video, "video", "genre"⟩]

theorem video_links_are_deleted :
    ¬ Meets Cleanup.apply (fun which now => OnlyOrphans now (which.apply now)) [.tags] videoLibrary ∧
    ¬ Meets Cleanup.apply (fun which now => OnlyOrphans now (which.apply now)) [.genres] videoLibrary ∧
    ¬ Meets Cleanup.apply (fun which now => OnlyOrphans now (which.apply now)) [.videoSeries]
      videoLibrary := by
  refine ⟨?_, ?_, ?_⟩
  · intro ⟨only, _⟩
    exact absurd (only.entityTags ⟨.video, "video", "tag"⟩ (by decide) (by decide)) (by decide)
  · intro ⟨only, _⟩
    exact absurd (only.entityTaxons ⟨.video, "video", "genre"⟩ (by decide) (by decide)) (by decide)
  · intro ⟨only, _⟩
    exact absurd (only.videos ⟨"video", some "new", some "season", none, none⟩ (by decide)) (by decide)

end Tomb.Grimoire.Maintenance
