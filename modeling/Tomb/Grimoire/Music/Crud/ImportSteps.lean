import Tomb.Grimoire.Music.Crud.Import

/-! What the statements of an import keep of the library. -/
namespace Tomb.Grimoire.Music.Crud
open Lib

namespace Library

structure Deduplicated (lib : Library) : Prop where
  songs : ∀ a ∈ lib.songs, ∀ b ∈ lib.songs, a.deleted = false → b.deleted = false →
    a.mediaBlobId = b.mediaBlobId → a = b
  artists : ∀ a ∈ lib.artists, ∀ b ∈ lib.artists, a.deleted = false → b.deleted = false →
    Sqlite.lower a.name = Sqlite.lower b.name → a = b
  albums : ∀ artistId, ∀ a ∈ lib.albums, ∀ b ∈ lib.albums, a.deleted = false →
    b.deleted = false → (artistId, a.id) ∈ lib.artistAlbumz → (artistId, b.id) ∈ lib.artistAlbumz →
    Sqlite.lower a.title = Sqlite.lower b.title → a = b

structure Linked (lib : Library) (song : String) : Prop where
  artist : ∃ artist ∈ lib.artists, (artist.id, song) ∈ lib.artistSongz
  album : ∃ album ∈ lib.albums, (album.id, song) ∈ lib.albumSongz

def AllLinked (lib : Library) : Prop :=
  ∀ song ∈ lib.songs, song.deleted = false → lib.Linked song.id

structure Extends (lib lib' : Library) : Prop where
  artists : ∀ row ∈ lib.artists, row ∈ lib'.artists
  albums : ∀ row ∈ lib.albums, ∃ row' ∈ lib'.albums, row'.id = row.id ∧ row'.title = row.title
  songs : ∀ row ∈ lib.songs, row ∈ lib'.songs
  artistSongz : lib.artistSongz ⊆ lib'.artistSongz
  albumSongz : lib.albumSongz ⊆ lib'.albumSongz
  artistAlbumz : lib.artistAlbumz ⊆ lib'.artistAlbumz

variable {lib lib' : Library}

theorem Extends.refl : Extends lib lib :=
  ⟨fun _ => id, fun row there => ⟨row, there, rfl, rfl⟩, fun _ => id, fun _ => id, fun _ => id,
    fun _ => id⟩

theorem Linked.mono {song : String} (linked : lib.Linked song) (more : Extends lib lib') :
    lib'.Linked song := by
  obtain ⟨⟨artist, there, byArtist⟩, album, known, onAlbum⟩ := linked
  obtain ⟨album', known', same, _⟩ := more.albums album known
  constructor
  · exact ⟨artist, more.artists artist there, more.artistSongz byArtist⟩
  · exact ⟨album', known', same ▸ more.albumSongz onAlbum⟩

section Inserts

theorem insert_fresh {ρ κ : Type} [DecidableEq κ] {key : ρ → κ} {table next : Table key} {row : ρ}
    (done : table.insert row = some next) : ∀ old ∈ table, key old ≠ key row := by
  intro old there same
  have refused := (Table.insert_eq_none table row).mpr ⟨old, there, same⟩
  rw [refused] at done
  cases done

theorem insertArtist_extends {row : Artist} (done : lib.insertArtist row = some lib') :
    Extends lib lib' ∧ row ∈ lib'.artists := by
  obtain ⟨artists, inserted, rfl⟩ := Option.map_eq_some_iff.mp done
  have rows := Table.insert_eq_some _ _ _ inserted
  exact ⟨{ (Extends.refl : Extends lib lib) with
      artists := fun old there => (rows old).mpr (.inl there) },
    (rows row).mpr (.inr rfl)⟩

theorem Deduplicated.insertArtist {row : Artist} (dedup : lib.Deduplicated)
    (free : lib.artistsNamed row.name = []) (done : lib.insertArtist row = some lib') :
    lib'.Deduplicated := by
  obtain ⟨artists, inserted, rfl⟩ := Option.map_eq_some_iff.mp done
  have rows := Table.insert_eq_some _ _ _ inserted
  have other (old : Artist) (there : old ∈ lib.artists) (live : old.deleted = false) :
      Sqlite.lower old.name ≠ Sqlite.lower row.name := by
    intro same
    have named : old ∈ lib.artistsNamed row.name := by
      rw [artistsNamed, Table.mem_select]
      simp [there, same, live]
    rw [free] at named
    cases named
  refine ⟨dedup.songs, fun a ha b hb liveA liveB same => ?_, dedup.albums⟩
  rcases (rows a).mp ha with oldA | rfl
  · rcases (rows b).mp hb with oldB | rfl
    · exact dedup.artists a oldA b oldB liveA liveB same
    · exact absurd same (other a oldA liveA)
  · rcases (rows b).mp hb with oldB | rfl
    · exact absurd same.symm (other b oldB liveB)
    · rfl

variable {row : Album}

theorem insertAlbum_eq (done : lib.insertAlbum row = some lib') :
    ∃ albums known, lib.albums.insert row = some albums ∧
      lib' = { lib with albums := albums, known := known } := by
  unfold insertAlbum at done
  split at done
  · cases done
  · rename_i albums inserted
    cases done
    exact ⟨albums, _, inserted, rfl⟩

theorem insertAlbum_extends (done : lib.insertAlbum row = some lib') :
    Extends lib lib' ∧ row ∈ lib'.albums := by
  obtain ⟨albums, known, inserted, rfl⟩ := insertAlbum_eq done
  have rows := Table.insert_eq_some _ _ _ inserted
  refine ⟨{ (Extends.refl : Extends lib lib) with albums := fun old there => ?_ },
    (rows row).mpr (.inr rfl)⟩
  exact ⟨old, (rows old).mpr (.inl there), rfl, rfl⟩

theorem Deduplicated.insertAlbum (dedup : lib.Deduplicated)
    (done : lib.insertAlbum row = some lib') : lib'.Deduplicated := by
  obtain ⟨albums, known, inserted, rfl⟩ := insertAlbum_eq done
  have rows := Table.insert_eq_some _ _ _ inserted
  have old (artistId : String) (a : Album) (there : a ∈ albums)
      (linked : (artistId, a.id) ∈ lib.artistAlbumz) : a ∈ lib.albums := by
    rcases (rows a).mp there with before | rfl
    · exact before
    · obtain ⟨album, present, same⟩ := lib.known _ linked
      exact absurd same (insert_fresh inserted album present)
  refine ⟨dedup.songs, dedup.artists, ?_⟩
  intro artistId a ha b hb liveA liveB linkedA linkedB same
  exact dedup.albums artistId a (old artistId a ha linkedA) b (old artistId b hb linkedB)
    liveA liveB linkedA linkedB same

theorem mem_setAlbumType {id albumType : String}
    (there : row ∈ (lib.setAlbumType id albumType).albums) : ∃ old ∈ lib.albums,
      row.id = old.id ∧ row.title = old.title ∧ row.deleted = old.deleted := by
  obtain ⟨old, known, rfl⟩ := List.mem_map.mp there
  refine ⟨old, known, ?_⟩
  split
  · exact ⟨rfl, rfl, rfl⟩
  · exact ⟨rfl, rfl, rfl⟩

theorem setAlbumType_extends (id albumType : String) :
    Extends lib (lib.setAlbumType id albumType) := by
  refine { (Extends.refl : Extends lib lib) with albums := fun old there => ?_ }
  refine ⟨_, List.mem_map.mpr ⟨old, there, rfl⟩, ?_⟩
  split
  · exact ⟨rfl, rfl⟩
  · exact ⟨rfl, rfl⟩

theorem Deduplicated.setAlbumType (dedup : lib.Deduplicated) (id albumType : String) :
    (lib.setAlbumType id albumType).Deduplicated := by
  refine ⟨dedup.songs, dedup.artists, ?_⟩
  intro artistId a ha b hb liveA liveB linkedA linkedB same
  obtain ⟨oldA, thereA, idA, titleA, deletedA⟩ := mem_setAlbumType ha
  obtain ⟨oldB, thereB, idB, titleB, deletedB⟩ := mem_setAlbumType hb
  rw [idA] at linkedA
  rw [idB] at linkedB
  rw [titleA, titleB] at same
  have one : oldA = oldB := dedup.albums artistId oldA thereA oldB thereB
    (deletedA.symm.trans liveA) (deletedB.symm.trans liveB) linkedA linkedB same
  subst one
  exact Table.eq_of_key_eq _ ha hb (idA.trans idB.symm)

theorem insertSong_eq {row : Song} (done : lib.insertSong row = .row lib') :
    (∀ old ∈ lib.songs, old.mediaBlobId ≠ row.mediaBlobId) ∧
      ∃ songs, lib.songs.insert row = some songs ∧ lib' = { lib with songs := songs } := by
  unfold insertSong at done
  split at done
  · cases done
  · rename_i free
    split at done
    · cases done
    · rename_i songs inserted
      cases done
      refine ⟨fun old there same => free ?_, songs, inserted, rfl⟩
      exact List.any_eq_true.mpr ⟨old, there, decide_eq_true same⟩

theorem insertSong_extends {row : Song} (done : lib.insertSong row = .row lib') :
    Extends lib lib' ∧ ∀ song ∈ lib'.songs, song ∈ lib.songs ∨ song = row := by
  obtain ⟨_, songs, inserted, rfl⟩ := insertSong_eq done
  have rows := Table.insert_eq_some _ _ _ inserted
  exact ⟨{ (Extends.refl : Extends lib lib) with
      songs := fun old there => (rows old).mpr (.inl there) },
    fun song there => (rows song).mp there⟩

theorem insertSong_mem {row : Song} (done : lib.insertSong row = .row lib') : row ∈ lib'.songs := by
  obtain ⟨_, songs, inserted, rfl⟩ := insertSong_eq done
  exact (Table.insert_eq_some _ _ _ inserted row).mpr (.inr rfl)

theorem Deduplicated.insertSong {row : Song} (dedup : lib.Deduplicated)
    (done : lib.insertSong row = .row lib') : lib'.Deduplicated := by
  obtain ⟨free, songs, inserted, rfl⟩ := insertSong_eq done
  have rows := Table.insert_eq_some _ _ _ inserted
  refine ⟨fun a ha b hb liveA liveB same => ?_, dedup.artists, dedup.albums⟩
  rcases (rows a).mp ha with oldA | rfl
  · rcases (rows b).mp hb with oldB | rfl
    · exact dedup.songs a oldA b oldB liveA liveB same
    · exact absurd same (free a oldA)
  · rcases (rows b).mp hb with oldB | rfl
    · exact absurd same.symm (free b oldB)
    · rfl

end Inserts

section Links

variable {artistId albumId songId : String}

theorem subset_insertLink (links : List (String × String)) (link : String × String) :
    links ⊆ insertLink links link :=
  fun _ listed => mem_insertLink.mpr (.inl listed)

theorem createArtistAlbumRelationship_eq
    (done : lib.createArtistAlbumRelationship artistId albumId = some lib') :
    ∃ known, lib' = { lib with
      artistAlbumz := insertLink lib.artistAlbumz (artistId, albumId), known := known } := by
  unfold createArtistAlbumRelationship at done
  split at done
  · cases done
    exact ⟨_, rfl⟩
  · cases done

theorem createArtistAlbumRelationship_extends
    (done : lib.createArtistAlbumRelationship artistId albumId = some lib') :
    Extends lib lib' ∧ (artistId, albumId) ∈ lib'.artistAlbumz ∧ lib'.songs = lib.songs := by
  obtain ⟨known, rfl⟩ := createArtistAlbumRelationship_eq done
  exact ⟨{ (Extends.refl : Extends lib lib) with artistAlbumz := subset_insertLink _ _ },
    mem_insertLink.mpr (.inr rfl), rfl⟩

theorem Deduplicated.createArtistAlbumRelationship (dedup : lib.Deduplicated) {row : Album}
    (there : row ∈ lib.albums) (named : row.id = albumId)
    (free : ∀ other ∈ lib.albums, other.deleted = false → (artistId, other.id) ∈ lib.artistAlbumz →
      Sqlite.lower other.title = Sqlite.lower row.title → other = row)
    (done : lib.createArtistAlbumRelationship artistId albumId = some lib') :
    lib'.Deduplicated := by
  obtain ⟨known, rfl⟩ := createArtistAlbumRelationship_eq done
  subst named
  refine ⟨dedup.songs, dedup.artists, ?_⟩
  intro owner a ha b hb liveA liveB linkedA linkedB same
  have cases (c : Album) (hc : c ∈ lib.albums)
      (linked : (owner, c.id) ∈ insertLink lib.artistAlbumz (artistId, row.id)) :
      (owner, c.id) ∈ lib.artistAlbumz ∨ owner = artistId ∧ c = row := by
    rcases mem_insertLink.mp linked with before | new
    · exact .inl before
    · obtain ⟨owns, is⟩ := Prod.mk.inj new
      exact .inr ⟨owns, lib.albums.eq_of_key_eq hc there is⟩
  rcases cases a ha linkedA with oldA | ⟨rfl, rfl⟩
  · rcases cases b hb linkedB with oldB | ⟨rfl, rfl⟩
    · exact dedup.albums owner a ha b hb liveA liveB oldA oldB same
    · exact free a ha liveA oldA same
  · rcases cases b hb linkedB with oldB | ⟨_, rfl⟩
    · exact (free b hb liveB oldB same.symm).symm
    · rfl

end Links

end Library

end Tomb.Grimoire.Music.Crud
