import Tomb.Grimoire.Maintenance.HardDelete

/-! What a hard deletion removes, as the set of the ids that are gone from each table, and when its dry
run counts the same. -/
namespace Tomb.Grimoire.Maintenance.HardDelete
open Tomb.Lib

abbrev Removed := Kind → String → Bool

def Removed.none : Removed := fun _ _ => false

def Removed.also (removed more : Removed) : Removed := fun kind id => removed kind id || more kind id

@[grind =] def Removed.each (grow : String → Removed) (ids : List String) : Removed :=
  fun kind id => ids.any fun root => grow root kind id

@[grind =]
def Removed.of (kind : Kind) (ids : String → Bool) : Removed := fun other id => other = kind && ids id

theorem Removed.also_none (removed : Removed) : removed.also .none = removed := by
  funext kind id
  exact Bool.or_false _

theorem Removed.none_also (removed : Removed) : Removed.none.also removed = removed := by
  funext kind id
  exact Bool.false_or _

theorem Removed.also_assoc (removed more last : Removed) :
    (removed.also more).also last = removed.also (more.also last) := by
  funext kind id
  exact Bool.or_assoc ..

theorem Removed.le_also {removed more : Removed} (kind : Kind) (id : String)
    (gone : removed kind id = true) : removed.also more kind id = true := by
  rw [also, gone, Bool.true_or]

@[grind =] def favorited : EntityType → Option Kind
  | .song => some .song
  | .album => some .album
  | .artist => some .artist
  | .playlist => some .playlist
  | .video => none

@[grind =] def rated : EntityType → Option Kind
  | .song => some .song
  | .album => some .album
  | .artist => some .artist
  | .playlist | .video => none

namespace Library

variable (lib : Library)

@[grind =] def without (removed : Removed) : Library :=
  { lib with
    songz := lib.songz.deleteWhere fun row => removed .song row.id
    albumz := lib.albumz.deleteWhere fun row => removed .album row.id
    artistz := lib.artistz.deleteWhere fun row => removed .artist row.id
    playlistz := lib.playlistz.deleteWhere fun row => removed .playlist row.id
    tagz := lib.tagz.deleteWhere fun row => removed .tag row.id
    taxonz := lib.taxonz.deleteWhere fun row => removed .genre row.id
    artistSongz := lib.artistSongz.filter fun row =>
      !(removed .song row.songId || removed .artist row.artistId)
    albumSongz := lib.albumSongz.filter fun row =>
      !(removed .song row.songId || removed .album row.albumId)
    artistAlbumz := lib.artistAlbumz.filter fun row => !removed .album row.albumId
    albumTagz := lib.albumTagz.filter fun row =>
      !(removed .album row.albumId || removed .tag row.tagId)
    albumTaxonz := lib.albumTaxonz.filter fun row =>
      !(removed .album row.albumId || removed .genre row.taxonId)
    playlistItemz := lib.playlistItemz.filter fun row =>
      !(row.entityType = .song && removed .song row.entityId || removed .playlist row.playlistId)
    songImagez := lib.songImagez.filter fun row => !removed .song row.ownerId
    albumImagez := lib.albumImagez.filter fun row => !removed .album row.ownerId
    artistImagez := lib.artistImagez.filter fun row => !removed .artist row.ownerId
    playlistImagez := lib.playlistImagez.filter fun row => !removed .playlist row.ownerId
    playEventz := lib.playEventz.filter fun row =>
      !(row.entityType = .song && removed .song row.entityId ||
        row.playlistId.any (removed .playlist))
    userFavoritez := lib.userFavoritez.filter fun row =>
      !(favorited row.targetType).any (removed · row.targetId)
    userRatingz := lib.userRatingz.filter fun row =>
      !(rated row.targetType).any (removed · row.targetId) }

def has : Kind → String → Bool
  | .song, id => (lib.songz.get id).isSome
  | .album, id => (lib.albumz.get id).isSome
  | .artist, id => (lib.artistz.get id).isSome
  | .playlist, id => (lib.playlistz.get id).isSome
  | .tag, id => (lib.tagz.get id).isSome
  | .genre, id => (lib.taxonz.get id).isSome

def bound : Kind → String → Bool
  | .song, id => lib.songHeld id
  | .album, id => lib.albumHeld id
  | .artist, id =>
    lib.relatedArtistz.any (fun row => row.sourceArtistId = id || row.relatedArtistId = some id) ||
      lib.musicPlayEventz.any (·.artistId = some id)
  | .playlist, id => lib.playlistHeld id
  | .tag, _ | .genre, _ => false

def Clean (removed : Removed) : Prop :=
  ∀ kind id, removed kind id = true → lib.has kind id = true → lib.bound kind id = false

/-- A deletion removes so much, or fails because something holds it. -/
def Ends (removed : Removed) (result : Option Library) : Prop :=
  (lib.Clean removed ∧ result = some (lib.without removed)) ∨
    (¬lib.Clean removed ∧ result = none)

variable {lib} {removed more : Removed}

theorem any_none {α : Type} (option : Option α) {p : α → Bool} (none : ∀ a, p a = false) :
    option.any p = false := by
  cases option with
  | none => rfl
  | some a => exact none a

theorem any_or {α : Type} (option : Option α) (p q : α → Bool) :
    option.any (fun a => p a || q a) = (option.any p || option.any q) := by
  cases option <;> rfl

theorem without_none : lib.without .none = lib := by
  ext1
  case playEventz =>
    refine List.filter_eq_self.mpr fun row _ => ?_
    have none : row.playlistId.any (Removed.none .playlist) = false := any_none _ fun _ => rfl
    simp [none, Removed.none]
  all_goals simp [without, Table.deleteWhere, Removed.none, any_none]

theorem any_also (option : Option String) (kind : Kind) : option.any (removed.also more kind) =
    (option.any (removed kind) || option.any (more kind)) :=
  any_or option (removed kind) (more kind)

theorem without_without : (lib.without removed).without more = lib.without (removed.also more) := by
  ext1
  all_goals simp only [without, Table.deleteWhere_deleteWhere, List.filter_filter, any_also]
  all_goals simp only [Removed.also, any_or]
  all_goals refine List.filter_congr fun row _ => ?_
  all_goals grind

theorem Clean.of_le (clean : lib.Clean more)
    (le : ∀ kind id, removed kind id = true → more kind id = true) : lib.Clean removed :=
  fun kind id gone => clean kind id (le kind id gone)

theorem Ends.bind {first : Option Library} {next : Library → Option Library}
    (ends : lib.Ends removed first)
    (le : ∀ kind id, removed kind id = true → more kind id = true)
    (goes : lib.Clean removed → lib.Ends more (next (lib.without removed))) :
    lib.Ends more (first.bind next) := by
  rcases ends with ⟨clean, rfl⟩ | ⟨held, rfl⟩
  · exact goes clean
  · exact .inr ⟨fun clean => held (clean.of_le le), rfl⟩

theorem dropSong_eq (id : String) : lib.dropSong id = lib.without (.of .song (· = id)) := by
  ext1
  case playEventz =>
    refine List.filter_congr fun row _ => ?_
    cases row.playlistId <;> simp [Removed.of]
  case userFavoritez =>
    refine List.filter_congr fun row _ => ?_
    cases row.targetType <;> simp [Removed.of, favorited]
  case userRatingz =>
    refine List.filter_congr fun row _ => ?_
    cases row.targetType <;> simp [Removed.of, rated]
  all_goals simp [dropSong, without, Removed.of, Table.deleteWhere]

theorem dropAlbum_eq (id : String) : lib.dropAlbum id = lib.without (.of .album (· = id)) := by
  ext1
  case playEventz =>
    refine (List.filter_eq_self.mpr fun row _ => ?_).symm
    cases row.playlistId <;> simp [Removed.of]
  case userFavoritez =>
    refine List.filter_congr fun row _ => ?_
    cases row.targetType <;> simp [Removed.of, favorited]
  case userRatingz =>
    refine List.filter_congr fun row _ => ?_
    cases row.targetType <;> simp [Removed.of, rated]
  all_goals simp [dropAlbum, without, Removed.of, Table.deleteWhere]

theorem dropArtist_eq (id : String) : lib.dropArtist id = lib.without (.of .artist (· = id)) := by
  ext1
  case playEventz =>
    refine (List.filter_eq_self.mpr fun row _ => ?_).symm
    cases row.playlistId <;> simp [Removed.of]
  case userFavoritez =>
    refine List.filter_congr fun row _ => ?_
    cases row.targetType <;> simp [Removed.of, favorited]
  case userRatingz =>
    refine List.filter_congr fun row _ => ?_
    cases row.targetType <;> simp [Removed.of, rated]
  all_goals simp [dropArtist, without, Removed.of, Table.deleteWhere]

theorem dropPlaylist_eq (id : String) :
    lib.dropPlaylist id = lib.without (.of .playlist (· = id)) := by
  ext1
  case playEventz =>
    refine List.filter_congr fun row _ => ?_
    cases row.playlistId <;> simp [Removed.of]
  case userFavoritez =>
    refine List.filter_congr fun row _ => ?_
    cases row.targetType <;> simp [Removed.of, favorited]
  case userRatingz =>
    refine (List.filter_eq_self.mpr fun row _ => ?_).symm
    cases row.targetType <;> simp [Removed.of, rated]
  all_goals simp [dropPlaylist, without, Removed.of, Table.deleteWhere]

theorem dropTag_eq (id : String) : lib.dropTag id = lib.without (.of .tag (· = id)) := by
  ext1
  case playEventz =>
    refine (List.filter_eq_self.mpr fun row _ => ?_).symm
    cases row.playlistId <;> simp [Removed.of]
  case userFavoritez =>
    refine (List.filter_eq_self.mpr fun row _ => ?_).symm
    cases row.targetType <;> simp [Removed.of, favorited]
  case userRatingz =>
    refine (List.filter_eq_self.mpr fun row _ => ?_).symm
    cases row.targetType <;> simp [Removed.of, rated]
  all_goals simp [dropTag, without, Removed.of, Table.deleteWhere]

theorem dropGenre_eq (id : String) : lib.dropGenre id = lib.without (.of .genre (· = id)) := by
  ext1
  case playEventz =>
    refine (List.filter_eq_self.mpr fun row _ => ?_).symm
    cases row.playlistId <;> simp [Removed.of]
  case userFavoritez =>
    refine (List.filter_eq_self.mpr fun row _ => ?_).symm
    cases row.targetType <;> simp [Removed.of, favorited]
  case userRatingz =>
    refine (List.filter_eq_self.mpr fun row _ => ?_).symm
    cases row.targetType <;> simp [Removed.of, rated]
  all_goals simp [dropGenre, without, Removed.of, Table.deleteWhere]

theorem isSome_get_deleteWhere {ρ : Type} {key : ρ → String} (table : Table key)
    (p : String → Bool) (id : String) :
    ((table.deleteWhere fun row => p (key row)).get id).isSome =
      ((table.get id).isSome && !p id) := by
  rw [Bool.eq_iff_iff, Bool.and_eq_true, Option.isSome_iff_exists, Option.isSome_iff_exists]
  simp only [Table.get_eq_some, Table.mem_deleteWhere]
  constructor
  · rintro ⟨row, ⟨present, kept⟩, rfl⟩
    exact ⟨⟨row, present, rfl⟩, by simp [kept]⟩
  · rintro ⟨⟨row, present, rfl⟩, kept⟩
    exact ⟨row, ⟨present, by simpa using kept⟩, rfl⟩

theorem has_without (kind : Kind) (id : String) :
    (lib.without removed).has kind id = (lib.has kind id && !removed kind id) := by
  cases kind <;> exact isSome_get_deleteWhere _ _ _

theorem ends_guard (clean : lib.Clean removed) (kind : Kind) (id : String) {held : Bool}
    (holds : held = lib.bound kind id) :
    lib.Ends (removed.also (.of kind (· = id)))
      (if (lib.without removed).has kind id && held then none
        else some ((lib.without removed).without (.of kind (· = id)))) := by
  subst held
  rw [has_without, without_without]
  split
  · rename_i blocked
    simp only [Bool.and_eq_true] at blocked
    refine .inr ⟨fun clean => ?_, rfl⟩
    have free := clean kind id (by simp [Removed.also, Removed.of]) blocked.1.1
    exact Bool.false_ne_true (free.symm.trans blocked.2)
  · rename_i free
    refine .inl ⟨fun other item gone present => ?_, rfl⟩
    cases known : removed other item with
    | true => exact clean other item known present
    | false =>
      obtain ⟨rfl, rfl⟩ : other = kind ∧ item = id := by
        simpa [Removed.also, Removed.of, known] using gone
      simpa [known, present] using free

theorem deleteSong_ends (clean : lib.Clean removed) (id : String) :
    lib.Ends (removed.also (.of .song (· = id))) ((lib.without removed).deleteSong id) := by
  rw [deleteSong, dropSong_eq]
  exact ends_guard clean .song id rfl

theorem deleteAlbumRow_ends (clean : lib.Clean removed) (id : String) :
    lib.Ends (removed.also (.of .album (· = id))) ((lib.without removed).deleteAlbumRow id) := by
  rw [deleteAlbumRow, dropAlbum_eq]
  exact ends_guard clean .album id rfl

theorem deletePlaylist_ends (clean : lib.Clean removed) (id : String) :
    lib.Ends (removed.also (.of .playlist (· = id))) ((lib.without removed).deletePlaylist id) := by
  rw [deletePlaylist, dropPlaylist_eq]
  exact ends_guard clean .playlist id rfl

theorem deleteArtistRow_ends (clean : lib.Clean removed) (id : String)
    (albums : ∀ link ∈ lib.artistAlbumz, link.artistId = id → removed .album link.albumId = true) :
    lib.Ends (removed.also (.of .artist (· = id))) ((lib.without removed).deleteArtistRow id) := by
  rw [deleteArtistRow, dropArtist_eq]
  have none : (lib.without removed).artistAlbumz.any (·.artistId = id) = false := by
    simp only [without, List.any_eq_false, List.mem_filter, Bool.not_eq_true', decide_eq_true_eq]
    intro link ⟨present, kept⟩ same
    exact Bool.false_ne_true (kept.symm.trans (albums link present same))
  refine ends_guard clean .artist id ?_
  rw [artistHeld, none]
  rfl

structure Closed (lib : Library) (removed : Removed) : Prop where
  albumSongs : ∀ link ∈ lib.albumSongz, removed .album link.albumId = true →
    removed .song link.songId = true
  artistAlbums : ∀ link ∈ lib.artistAlbumz, removed .artist link.artistId = true →
    removed .album link.albumId = true
  artistSongs : ∀ link ∈ lib.artistSongz, removed .artist link.artistId = true →
    removed .song link.songId = true

theorem Closed.also_of (closed : lib.Closed removed) (kind : Kind) (album : kind ≠ .album)
    (artist : kind ≠ .artist) (ids : String → Bool) : lib.Closed (removed.also (.of kind ids)) where
  albumSongs link present gone := by
    refine Removed.le_also _ _ (closed.albumSongs link present ?_)
    simpa [Removed.also, Removed.of, album.symm] using gone
  artistAlbums link present gone := by
    refine Removed.le_also _ _ (closed.artistAlbums link present ?_)
    simpa [Removed.also, Removed.of, artist.symm] using gone
  artistSongs link present gone := by
    refine Removed.le_also _ _ (closed.artistSongs link present ?_)
    simpa [Removed.also, Removed.of, artist.symm] using gone

variable {grow : String → Removed}

theorem foldlM_ends {step : Library → String → Option Library}
    (takes : ∀ {removed}, lib.Clean removed → lib.Closed removed → ∀ id,
      lib.Ends (removed.also (grow id)) (step (lib.without removed) id))
    (closes : ∀ {removed}, lib.Closed removed → ∀ id, lib.Closed (removed.also (grow id)))
    (clean : lib.Clean removed) (closed : lib.Closed removed) (ids : List String) :
    lib.Ends (removed.also (.each grow ids)) (ids.foldlM step (lib.without removed)) := by
  induction ids generalizing removed with
  | nil =>
    have none : removed.also (.each grow []) = removed := Removed.also_none removed
    rw [none]
    exact .inl ⟨clean, rfl⟩
  | cons id rest ih =>
    have first : removed.also (.each grow (id :: rest)) =
        (removed.also (grow id)).also (.each grow rest) := (Removed.also_assoc ..).symm
    rw [first, List.foldlM_cons]
    exact (takes clean closed id).bind Removed.le_also fun clean => ih clean (closes closed id)

theorem deleteSongs_ends (clean : lib.Clean removed) (closed : lib.Closed removed)
    (ids : List String) :
    lib.Ends (removed.also (.each (fun id => .of .song (· = id)) ids))
      ((lib.without removed).deleteSongs ids) :=
  foldlM_ends (fun clean _ id => deleteSong_ends clean id)
    (fun closed id => closed.also_of .song nofun nofun (· = id)) clean closed ids

theorem Closed.also_each (closed : lib.Closed removed)
    (closes : ∀ {removed}, lib.Closed removed → ∀ id, lib.Closed (removed.also (grow id)))
    (ids : List String) : lib.Closed (removed.also (.each grow ids)) := by
  induction ids generalizing removed with
  | nil =>
    have none : removed.also (.each grow []) = removed := Removed.also_none removed
    rwa [none]
  | cons id rest ih =>
    have first : removed.also (.each grow (id :: rest)) =
        (removed.also (grow id)).also (.each grow rest) := (Removed.also_assoc ..).symm
    rw [first]
    exact ih (closes closed id)

theorem mem_albumSongIds (albumId id : String) :
    id ∈ (lib.without removed).albumSongIds albumId ↔ (⟨albumId, id⟩ : AlbumSong) ∈ lib.albumSongz ∧
      removed .song id = false ∧ removed .album albumId = false := by
  simp only [albumSongIds, without, List.mem_map, List.mem_filter, Bool.not_eq_true',
    Bool.or_eq_false_iff, decide_eq_true_eq]
  constructor
  · rintro ⟨link, ⟨⟨present, kept⟩, rfl⟩, rfl⟩
    exact ⟨present, kept⟩
  · rintro ⟨present, kept⟩
    exact ⟨_, ⟨⟨present, kept⟩, rfl⟩, rfl⟩

theorem mem_artistSongIds (artistId id : String) :
    id ∈ (lib.without removed).artistSongIds artistId ↔
      (⟨artistId, id⟩ : ArtistSong) ∈ lib.artistSongz ∧
        removed .song id = false ∧ removed .artist artistId = false := by
  simp only [artistSongIds, without, List.mem_map, List.mem_filter, Bool.not_eq_true',
    Bool.or_eq_false_iff, decide_eq_true_eq]
  constructor
  · rintro ⟨link, ⟨⟨present, kept⟩, rfl⟩, rfl⟩
    exact ⟨present, kept⟩
  · rintro ⟨present, kept⟩
    exact ⟨_, ⟨⟨present, kept⟩, rfl⟩, rfl⟩

theorem mem_artistAlbumIds (artistId id : String) :
    id ∈ (lib.without removed).artistAlbumIds artistId ↔
      (⟨artistId, id⟩ : ArtistAlbum) ∈ lib.artistAlbumz ∧ removed .album id = false := by
  simp only [artistAlbumIds, without, List.mem_map, List.mem_filter, Bool.not_eq_true',
    decide_eq_true_eq]
  constructor
  · rintro ⟨link, ⟨⟨present, kept⟩, rfl⟩, rfl⟩
    exact ⟨present, kept⟩
  · rintro ⟨present, kept⟩
    exact ⟨_, ⟨⟨present, kept⟩, rfl⟩, rfl⟩

variable (lib) in
@[grind =] def ofAlbum (albumId : String) : Removed
  | .album, id => id = albumId
  | .song, id => (⟨albumId, id⟩ : AlbumSong) ∈ lib.albumSongz
  | _, _ => false

theorem ofAlbum_eq (closed : lib.Closed removed) (albumId : String) :
    (removed.also (.each (fun id => .of .song (· = id))
      ((lib.without removed).albumSongIds albumId))).also (.of .album (· = albumId)) =
      removed.also (lib.ofAlbum albumId) := by
  funext kind id
  rw [Bool.eq_iff_iff]
  cases kind
  case song =>
    have taken := closed.albumSongs ⟨albumId, id⟩
    simp only [Removed.also, Removed.each, Removed.of, ofAlbum, Bool.or_eq_true,
      List.any_eq_true, decide_eq_true_eq]
    simp
    grind [mem_albumSongIds]
  all_goals simp [Removed.also, Removed.each, Removed.of, ofAlbum]

theorem Closed.also_ofAlbum (closed : lib.Closed removed) (albumId : String) :
    lib.Closed (removed.also (lib.ofAlbum albumId)) where
  albumSongs link present gone := by
    rcases (Bool.or_eq_true ..).mp gone with before | now
    · exact Removed.le_also _ _ (closed.albumSongs link present before)
    · obtain rfl : link.albumId = albumId := by simpa [ofAlbum] using now
      have songs : lib.ofAlbum link.albumId .song link.songId = true := decide_eq_true present
      rw [Removed.also, songs, Bool.or_true]
  artistAlbums link present gone := by
    refine Removed.le_also _ _ (closed.artistAlbums link present ?_)
    simpa [Removed.also, ofAlbum] using gone
  artistSongs link present gone := by
    refine Removed.le_also _ _ (closed.artistSongs link present ?_)
    simpa [Removed.also, ofAlbum] using gone

theorem deleteAlbum_ends (clean : lib.Clean removed) (closed : lib.Closed removed) (id : String) :
    lib.Ends (removed.also (lib.ofAlbum id)) ((lib.without removed).deleteAlbum id) := by
  rw [← ofAlbum_eq closed]
  exact (deleteSongs_ends clean closed _).bind Removed.le_also fun clean =>
    deleteAlbumRow_ends clean id

theorem deleteAlbums_ends (clean : lib.Clean removed) (closed : lib.Closed removed)
    (ids : List String) :
    lib.Ends (removed.also (.each lib.ofAlbum ids)) ((lib.without removed).deleteAlbums ids) :=
  foldlM_ends deleteAlbum_ends Closed.also_ofAlbum clean closed ids

variable (lib) in
@[grind =] def ofArtist (artistId : String) : Removed
  | .artist, id => id = artistId
  | .album, id => (⟨artistId, id⟩ : ArtistAlbum) ∈ lib.artistAlbumz
  | .song, id => (⟨artistId, id⟩ : ArtistSong) ∈ lib.artistSongz ∨
      ∃ link ∈ lib.artistAlbumz, link.artistId = artistId ∧ lib.ofAlbum link.albumId .song id = true
  | _, _ => false

theorem Closed.also_ofArtist (closed : lib.Closed removed) (artistId : String) :
    lib.Closed (removed.also (lib.ofArtist artistId)) where
  albumSongs link present gone := by
    rcases (Bool.or_eq_true ..).mp gone with before | now
    · exact Removed.le_also _ _ (closed.albumSongs link present before)
    · have songs : lib.ofArtist artistId .song link.songId = true :=
        decide_eq_true (.inr ⟨_, of_decide_eq_true now, rfl, decide_eq_true present⟩)
      rw [Removed.also, songs, Bool.or_true]
  artistAlbums link present gone := by
    rcases (Bool.or_eq_true ..).mp gone with before | now
    · exact Removed.le_also _ _ (closed.artistAlbums link present before)
    · obtain rfl : link.artistId = artistId := by simpa [ofArtist] using now
      have albums : lib.ofArtist link.artistId .album link.albumId = true := decide_eq_true present
      rw [Removed.also, albums, Bool.or_true]
  artistSongs link present gone := by
    rcases (Bool.or_eq_true ..).mp gone with before | now
    · exact Removed.le_also _ _ (closed.artistSongs link present before)
    · obtain rfl : link.artistId = artistId := by simpa [ofArtist] using now
      have songs : lib.ofArtist link.artistId .song link.songId = true :=
        decide_eq_true (.inl present)
      rw [Removed.also, songs, Bool.or_true]

variable (lib removed) in
@[grind =] def albumsGone (artistId : String) : Removed :=
  removed.also (.each lib.ofAlbum ((lib.without removed).artistAlbumIds artistId))

theorem albumsGone_album (artistId id : String) : lib.albumsGone removed artistId .album id =
    (removed .album id || decide ((⟨artistId, id⟩ : ArtistAlbum) ∈ lib.artistAlbumz)) := by
  rw [Bool.eq_iff_iff]
  simp only [albumsGone, Removed.also, Removed.each, ofAlbum, Bool.or_eq_true, List.any_eq_true,
    decide_eq_true_eq]
  grind [mem_artistAlbumIds]

theorem albumsGone_song (closed : lib.Closed removed) (artistId id : String) :
    lib.albumsGone removed artistId .song id = true ↔ removed .song id = true ∨
      ∃ link ∈ lib.artistAlbumz, link.artistId = artistId ∧
        lib.ofAlbum link.albumId .song id = true := by
  simp only [albumsGone, Removed.also, Removed.each, Bool.or_eq_true, List.any_eq_true]
  constructor
  · rintro (before | ⟨albumId, found, song⟩)
    · exact .inl before
    · exact .inr ⟨_, ((mem_artistAlbumIds _ _).mp found).1, rfl, song⟩
  · rintro (before | ⟨link, present, rfl, song⟩)
    · exact .inl before
    · cases known : removed .album link.albumId with
      | true => exact .inl (closed.albumSongs _ (of_decide_eq_true song) known)
      | false => exact .inr ⟨_, (mem_artistAlbumIds _ _).mpr ⟨present, known⟩, song⟩

theorem ofArtist_eq (closed : lib.Closed removed) (artistId : String) :
    ((lib.albumsGone removed artistId).also (.each (fun id => .of .song (· = id))
      ((lib.without (lib.albumsGone removed artistId)).artistSongIds artistId))).also
        (.of .artist (· = artistId)) = removed.also (lib.ofArtist artistId) := by
  funext kind id
  rw [Bool.eq_iff_iff]
  cases kind
  case song =>
    have taken := closed.artistSongs ⟨artistId, id⟩
    have artists : lib.albumsGone removed artistId .artist artistId = removed .artist artistId := by
      rw [Bool.eq_iff_iff]
      simp [albumsGone, Removed.also, Removed.each, ofAlbum]
    simp only [Removed.also, Removed.each, Removed.of, ofArtist, Bool.or_eq_true, List.any_eq_true,
      decide_eq_true_eq]
    simp only [reduceCtorEq, decide_false, Bool.false_and, Bool.false_eq_true, or_false,
      decide_true, Bool.true_and, decide_eq_true_eq, exists_eq_right']
    grind [mem_artistSongIds, albumsGone_song]
  case album => simp [Removed.also, Removed.each, Removed.of, ofArtist, albumsGone_album]
  all_goals simp [Removed.also, Removed.each, Removed.of, ofArtist, albumsGone, ofAlbum]

theorem deleteArtist_ends (clean : lib.Clean removed) (closed : lib.Closed removed) (id : String) :
    lib.Ends (removed.also (lib.ofArtist id)) ((lib.without removed).deleteArtist id) := by
  rw [← ofArtist_eq closed]
  have closed' : lib.Closed (lib.albumsGone removed id) :=
    closed.also_each Closed.also_ofAlbum _
  refine (deleteAlbums_ends clean closed _).bind ?_ fun clean => ?_
  · intro kind item gone
    exact Removed.le_also _ _ (Removed.le_also _ _ gone)
  · refine (deleteSongs_ends clean closed' _).bind Removed.le_also fun clean => ?_
    have albums : ∀ link ∈ lib.artistAlbumz, link.artistId = id →
        lib.albumsGone removed id .album link.albumId = true := by
      rintro link present rfl
      rw [albumsGone_album, decide_eq_true present, Bool.or_true]
    exact deleteArtistRow_ends clean id fun link present same =>
      Removed.le_also _ _ (albums link present same)

theorem foldl_without {step : Library → String → Library}
    (steps : ∀ lib id, step lib id = lib.without (grow id)) (ids : List String) :
    ids.foldl step (lib.without removed) = lib.without (removed.also (.each grow ids)) := by
  induction ids generalizing removed with
  | nil => exact congrArg lib.without (Removed.also_none removed).symm
  | cons id rest ih =>
    rw [List.foldl_cons, steps, without_without, ih]
    exact congrArg lib.without (Removed.also_assoc ..)

theorem rows_without {ρ : Type} {key : ρ → String} (table : Table key) {p : String → Bool}
    (none : ∀ id, p id = false) : (table.deleteWhere fun row => p (key row)).rows = table.rows :=
  List.filter_eq_self.mpr fun row _ => by simp [none]

theorem oldIds_without (kind : Kind) (none : ∀ id, removed kind id = false) (cutoff : Int) :
    (lib.without removed).oldIds cutoff kind = lib.oldIds cutoff kind := by
  cases kind
  case genre =>
    simp only [Library.oldIds, oldGenreIds, without, rows_without _ none]
    rfl
  all_goals simp only [Library.oldIds, HardDelete.oldIds, oldSongIds, without,
    rows_without _ none]

variable (lib) in
def doomedAlbum (cutoff : Int) (id : String) : Prop :=
  id ∈ lib.oldIds cutoff .album ∨
    ∃ link ∈ lib.artistAlbumz, link.artistId ∈ lib.oldIds cutoff .artist ∧ link.albumId = id

instance (cutoff : Int) (id : String) : Decidable (lib.doomedAlbum cutoff id) :=
  inferInstanceAs (Decidable (_ ∨ _))

variable (lib) in
def doomed (cutoff : Int) : Removed
  | .album, id => lib.doomedAlbum cutoff id
  | .song, id => id ∈ lib.oldIds cutoff .song ∨
      (∃ link ∈ lib.albumSongz, lib.doomedAlbum cutoff link.albumId ∧ link.songId = id) ∨
      ∃ link ∈ lib.artistSongz, link.artistId ∈ lib.oldIds cutoff .artist ∧ link.songId = id
  | kind, id => id ∈ lib.oldIds cutoff kind

section
variable (lib) (cutoff : Int)

/-! What is removed with each further step. -/

@[grind =]
def sweptSongs : Removed := .each (fun id => .of .song (· = id)) (lib.oldIds cutoff .song)

@[grind =] def sweptAlbums : Removed :=
  (lib.sweptSongs cutoff).also (.each lib.ofAlbum (lib.oldIds cutoff .album))

@[grind =] def sweptArtists : Removed :=
  (lib.sweptAlbums cutoff).also (.each lib.ofArtist (lib.oldIds cutoff .artist))

def sweptPlaylists : Removed := (lib.sweptArtists cutoff).also
  (.each (fun id => .of .playlist (· = id)) (lib.oldIds cutoff .playlist))

def sweptTags : Removed :=
  (lib.sweptPlaylists cutoff).also (.each (fun id => .of .tag (· = id)) (lib.oldIds cutoff .tag))

def swept : Removed :=
  (lib.sweptTags cutoff).also (.each (fun id => .of .genre (· = id)) (lib.oldIds cutoff .genre))

end

theorem swept_song (cutoff : Int) (id : String) :
    lib.swept cutoff .song id = true ↔ id ∈ lib.oldIds cutoff .song ∨
      (∃ albumId, lib.doomedAlbum cutoff albumId ∧ (⟨albumId, id⟩ : AlbumSong) ∈ lib.albumSongz) ∨
      ∃ artistId ∈ lib.oldIds cutoff .artist, (⟨artistId, id⟩ : ArtistSong) ∈ lib.artistSongz := by
  simp only [swept, sweptTags, sweptPlaylists, sweptArtists, sweptAlbums,
    sweptSongs, doomedAlbum, Removed.also, Removed.each, Removed.of, ofAlbum,
    ofArtist, Bool.or_eq_true, List.any_eq_true, decide_eq_true_eq]
  simp
  constructor
  · rintro ((old | ⟨albumId, old, link⟩) | ⟨artistId, old, link | ⟨link, album, rfl, song⟩⟩)
    · exact .inl old
    · exact .inr (.inl ⟨albumId, .inl old, link⟩)
    · exact .inr (.inr ⟨artistId, old, link⟩)
    · exact .inr (.inl ⟨link.albumId, .inr ⟨link, album, old, rfl⟩, song⟩)
  · rintro (old | ⟨albumId, old | ⟨link, album, old, rfl⟩, song⟩ | ⟨artistId, old, link⟩)
    · exact .inl (.inl old)
    · exact .inl (.inr ⟨albumId, old, song⟩)
    · exact .inr ⟨_, old, .inr ⟨link, album, rfl, song⟩⟩
    · exact .inr ⟨artistId, old, .inl link⟩

theorem swept_eq (cutoff : Int) : lib.swept cutoff = lib.doomed cutoff := by
  funext kind id
  rw [Bool.eq_iff_iff]
  cases kind
  case song =>
    rw [swept_song, doomed, decide_eq_true_iff]
    refine or_congr_right (or_congr ?_ ?_)
    · exact ⟨fun ⟨_, gone, song⟩ => ⟨_, song, gone, rfl⟩,
        fun ⟨link, song, gone, same⟩ => ⟨_, gone, same ▸ song⟩⟩
    · exact ⟨fun ⟨_, gone, song⟩ => ⟨_, song, gone, rfl⟩,
        fun ⟨link, song, gone, same⟩ => ⟨_, gone, same ▸ song⟩⟩
  case album =>
    rw [doomed, decide_eq_true_iff]
    have artists : (∃ link ∈ lib.artistAlbumz, link.artistId ∈ lib.oldIds cutoff .artist ∧
        link.albumId = id) ↔ ∃ artistId ∈ lib.oldIds cutoff .artist,
          (⟨artistId, id⟩ : ArtistAlbum) ∈ lib.artistAlbumz :=
      ⟨fun ⟨link, album, gone, same⟩ => ⟨_, gone, same ▸ album⟩,
        fun ⟨_, gone, album⟩ => ⟨_, album, gone, rfl⟩⟩
    simp [swept, sweptTags, sweptPlaylists, sweptArtists, sweptAlbums,
    sweptSongs, doomedAlbum, artists, Removed.also, Removed.each, Removed.of,
      ofAlbum, ofArtist]
  all_goals simp [swept, sweptTags, sweptPlaylists, sweptArtists, sweptAlbums, sweptSongs, doomed, Removed.also, Removed.each, Removed.of, ofAlbum,
    ofArtist]

section
variable (cutoff : Int)

theorem closed_sweptSongs : lib.Closed (lib.sweptSongs cutoff) := by
  have closed : lib.Closed .none := ⟨nofun, nofun, nofun⟩
  have songs := closed.also_each (fun closed id => closed.also_of .song nofun nofun (· = id))
    (lib.oldIds cutoff .song)
  rwa [Removed.none_also] at songs

theorem closed_sweptAlbums : lib.Closed (lib.sweptAlbums cutoff) :=
  (closed_sweptSongs cutoff).also_each Closed.also_ofAlbum _

theorem closed_sweptArtists : lib.Closed (lib.sweptArtists cutoff) :=
  (closed_sweptAlbums cutoff).also_each Closed.also_ofArtist _

theorem songs_end : lib.Ends (lib.sweptSongs cutoff) (lib.deleteSongs (lib.oldSongIds cutoff)) := by
  have songs := @deleteSongs_ends lib .none nofun ⟨nofun, nofun, nofun⟩
    (lib.oldIds cutoff .song)
  rwa [Removed.none_also, without_none] at songs

theorem albums_end (clean : lib.Clean (lib.sweptSongs cutoff)) :
    lib.Ends (lib.sweptAlbums cutoff) ((lib.without (lib.sweptSongs cutoff)).deleteAlbums
      (HardDelete.oldIds cutoff (lib.without (lib.sweptSongs cutoff)).albumz)) := by
  have ids := @oldIds_without lib (lib.sweptSongs cutoff) .album
    (fun id => by simp [sweptSongs, Removed.each, Removed.of]) cutoff
  rw [Library.oldIds] at ids
  rw [ids]
  exact deleteAlbums_ends clean (closed_sweptSongs cutoff) _

theorem artists_end (clean : lib.Clean (lib.sweptAlbums cutoff)) :
    lib.Ends (lib.sweptArtists cutoff)
      ((HardDelete.oldIds cutoff (lib.without (lib.sweptAlbums cutoff)).artistz).foldlM deleteArtist
        (lib.without (lib.sweptAlbums cutoff))) := by
  have ids := @oldIds_without lib (lib.sweptAlbums cutoff) .artist
    (fun id => by simp [sweptAlbums, sweptSongs, ofAlbum, Removed.also, Removed.each, Removed.of])
    cutoff
  rw [Library.oldIds] at ids
  rw [ids]
  exact foldlM_ends deleteArtist_ends Closed.also_ofArtist clean (closed_sweptAlbums cutoff) _

theorem playlists_end (clean : lib.Clean (lib.sweptArtists cutoff)) :
    lib.Ends (lib.sweptPlaylists cutoff)
      ((HardDelete.oldIds cutoff (lib.without (lib.sweptArtists cutoff)).playlistz).foldlM
        deletePlaylist (lib.without (lib.sweptArtists cutoff))) := by
  have ids := @oldIds_without lib (lib.sweptArtists cutoff) .playlist
    (fun id => by
      simp [sweptArtists, sweptAlbums, sweptSongs, ofAlbum, ofArtist, Removed.also, Removed.each,
        Removed.of])
    cutoff
  rw [Library.oldIds] at ids
  rw [ids]
  exact foldlM_ends (fun clean _ id => deletePlaylist_ends clean id)
    (fun closed id => closed.also_of .playlist nofun nofun (· = id)) clean
    (closed_sweptArtists cutoff) _

theorem tags_end : (HardDelete.oldIds cutoff (lib.without (lib.sweptPlaylists cutoff)).tagz).foldl
    dropTag (lib.without (lib.sweptPlaylists cutoff)) = lib.without (lib.sweptTags cutoff) := by
  have ids := @oldIds_without lib (lib.sweptPlaylists cutoff) .tag
    (fun id => by
      simp [sweptPlaylists, sweptArtists, sweptAlbums, sweptSongs, ofAlbum, ofArtist, Removed.also,
        Removed.each, Removed.of])
    cutoff
  rw [Library.oldIds] at ids
  rw [ids, foldl_without @dropTag_eq]
  rfl

theorem genres_end : ((lib.without (lib.sweptTags cutoff)).oldGenreIds cutoff).foldl dropGenre
    (lib.without (lib.sweptTags cutoff)) = lib.without (lib.swept cutoff) := by
  have ids := @oldIds_without lib (lib.sweptTags cutoff) .genre
    (fun id => by
      simp [sweptTags, sweptPlaylists, sweptArtists, sweptAlbums, sweptSongs, ofAlbum, ofArtist,
        Removed.also, Removed.each, Removed.of])
    cutoff
  rw [Library.oldIds] at ids
  rw [ids, foldl_without @dropGenre_eq]
  rfl

theorem clean_swept (clean : lib.Clean (lib.sweptPlaylists cutoff)) :
    lib.Clean (lib.swept cutoff) := by
  intro kind id gone present
  cases kind
  case tag => rfl
  case genre => rfl
  all_goals
    refine clean _ id ?_ present
    simpa [swept, sweptTags, Removed.also, Removed.each, Removed.of] using gone

end

theorem Ends.map_bind {α : Type} {first : Option Library} {next : Library → Option α}
    {f : α → Library} (ends : lib.Ends removed first)
    (le : ∀ kind id, removed kind id = true → more kind id = true)
    (goes : lib.Clean removed → lib.Ends more ((next (lib.without removed)).map f)) :
    lib.Ends more ((first.bind next).map f) := by
  rw [Option.map_bind]
  exact ends.bind le goes

end Library

theorem swept_ends (lib : Library) (call : Call) :
    (lib.cascadeFromBlobs (call.time + call.elapsed)).Ends
      ((lib.cascadeFromBlobs (call.time + call.elapsed)).swept call.cutoff)
      ((hardDeleteOldRecords lib call).map (·.2)) := by
  unfold hardDeleteOldRecords
  generalize lib.cascadeFromBlobs (call.time + call.elapsed) = lib
  have playlists : ∀ kind id, lib.sweptPlaylists call.cutoff kind id = true →
      lib.swept call.cutoff kind id = true := fun _ _ gone =>
    Removed.le_also _ _ (Removed.le_also _ _ gone)
  have artists : ∀ kind id, lib.sweptArtists call.cutoff kind id = true →
      lib.swept call.cutoff kind id = true := fun _ _ gone =>
    playlists _ _ (Removed.le_also _ _ gone)
  have albums : ∀ kind id, lib.sweptAlbums call.cutoff kind id = true →
      lib.swept call.cutoff kind id = true := fun _ _ gone =>
    artists _ _ (Removed.le_also _ _ gone)
  have songs : ∀ kind id, lib.sweptSongs call.cutoff kind id = true →
      lib.swept call.cutoff kind id = true := fun _ _ gone =>
    albums _ _ (Removed.le_also _ _ gone)
  refine (Library.songs_end call.cutoff).map_bind songs fun clean => ?_
  refine (Library.albums_end call.cutoff clean).map_bind albums fun clean => ?_
  refine (Library.artists_end call.cutoff clean).map_bind artists fun clean => ?_
  refine (Library.playlists_end call.cutoff clean).map_bind playlists fun clean => ?_
  refine .inl ⟨Library.clean_swept call.cutoff clean, ?_⟩
  simp only [Option.map_some, Library.tags_end, Library.genres_end]

namespace Library

variable {lib : Library}

theorem ids_without (removed : Removed) (kind : Kind) :
    (lib.without removed).ids kind = (lib.ids kind).filter fun id => !removed kind id := by
  cases kind <;>
  · simp only [ids, without, Table.deleteWhere, List.filter_map]
    rfl

theorem nodup_ids (lib : Library) (kind : Kind) : (lib.ids kind).Nodup := by
  cases kind
  case song => exact lib.songz.unique
  case album => exact lib.albumz.unique
  case artist => exact lib.artistz.unique
  case playlist => exact lib.playlistz.unique
  case tag => exact lib.tagz.unique
  case genre => exact lib.taxonz.unique

theorem oldIds_sublist (lib : Library) (cutoff : Int) (kind : Kind) :
    (lib.oldIds cutoff kind).Sublist (lib.ids kind) := by
  cases kind <;> exact List.filter_sublist.map _

theorem doomed_of_mem_oldIds {cutoff : Int} {kind : Kind} {id : String}
    (old : id ∈ lib.oldIds cutoff kind) : lib.doomed cutoff kind id = true := by
  cases kind
  case song => exact decide_eq_true (.inl old)
  case album => exact decide_eq_true (.inl old)
  all_goals exact decide_eq_true old

theorem oldIds_cascadeFromBlobs {cutoff now : Int} (late : cutoff ≤ now) (kind : Kind) :
    (lib.cascadeFromBlobs now).oldIds cutoff kind = lib.oldIds cutoff kind := by
  cases kind
  case song =>
    simp only [Library.oldIds, oldSongIds, cascadeFromBlobs, Table.update, List.filter_map,
      List.map_map]
    have marked : ∀ song : Song, (if lib.blobGone song && song.deletedAt.isNone then
        { song with deletedAt := some now } else song).id = song.id ∧
          old cutoff (if lib.blobGone song && song.deletedAt.isNone then
            { song with deletedAt := some now } else song).deletedAt = old cutoff song.deletedAt := by
      intro song
      split
      · rename_i gone
        have alive := Option.isNone_iff_eq_none.mp (Bool.and_eq_true_iff.mp gone).2
        simp [old, alive, late]
      · exact ⟨rfl, rfl⟩
    refine (List.map_congr_left fun song _ => (marked song).1).trans ?_
    exact congrArg _ (List.filter_congr fun song _ => (marked song).2)
  all_goals rfl

theorem ids_cascadeFromBlobs (now : Int) (kind : Kind) :
    (lib.cascadeFromBlobs now).ids kind = lib.ids kind := by
  cases kind
  case song =>
    simp only [Library.ids, cascadeFromBlobs, Table.update, List.map_map]
    refine List.map_congr_left fun song _ => ?_
    simp only [Function.comp_apply]
    split <;> rfl
  all_goals rfl

theorem has_iff (kind : Kind) (id : String) : lib.has kind id = true ↔ id ∈ lib.ids kind := by
  cases kind <;>
    simp only [has, ids, Option.isSome_iff_exists, Table.get_eq_some, List.mem_map, Table.mem_def]

theorem doomed_cascadeFromBlobs {cutoff now : Int} (late : cutoff ≤ now) :
    (lib.cascadeFromBlobs now).doomed cutoff = lib.doomed cutoff := by
  have links : (lib.cascadeFromBlobs now).artistAlbumz = lib.artistAlbumz ∧
      (lib.cascadeFromBlobs now).albumSongz = lib.albumSongz ∧
      (lib.cascadeFromBlobs now).artistSongz = lib.artistSongz := ⟨rfl, rfl, rfl⟩
  funext kind id
  cases kind
  case song | album =>
    refine decide_eq_decide.mpr ?_
    simp only [doomedAlbum, oldIds_cascadeFromBlobs late, links]
  all_goals simp only [doomed, oldIds_cascadeFromBlobs late]

theorem clean_cascadeFromBlobs (now : Int) (removed : Removed) :
    (lib.cascadeFromBlobs now).Clean removed ↔ lib.Clean removed := by
  have bound : (lib.cascadeFromBlobs now).bound = lib.bound := by
    funext kind id
    cases kind <;> rfl
  simp only [Clean, has_iff, ids_cascadeFromBlobs, bound]

end Library

theorem ids_after (lib : Library) (call : Call) (kind : Kind) :
    (lib.Clean (lib.doomed call.cutoff) ∧ (after lib call).ids kind =
      (lib.ids kind).filter fun id => !lib.doomed call.cutoff kind id) ∨
    (¬lib.Clean (lib.doomed call.cutoff) ∧ (after lib call).ids kind = lib.ids kind) := by
  have late : call.cutoff ≤ call.time + call.elapsed := by
    unfold Call.cutoff
    omega
  have ends := swept_ends lib call
  rw [Library.swept_eq, Library.doomed_cascadeFromBlobs late, Library.Ends,
    Library.clean_cascadeFromBlobs] at ends
  unfold after
  rcases ends with ⟨clean, done⟩ | ⟨held, failed⟩
  · obtain ⟨⟨summary, next⟩, run, rfl⟩ := Option.map_eq_some_iff.mp done
    rw [run]
    refine .inl ⟨clean, ?_⟩
    rw [Library.ids_without, Library.ids_cascadeFromBlobs]
  · rw [Option.map_eq_none_iff.mp failed]
    exact .inr ⟨held, rfl⟩

def removedCount (lib : Library) (call : Call) (kind : Kind) : Nat :=
  (lib.ids kind).countP fun id => id ∉ (after lib call).ids kind

def TellsTheTruth (lib : Library) (call : Call) : Prop :=
  ∀ kind, (dryRunCount lib call).deleted kind = removedCount lib call kind

theorem removedCount_of_clean {lib : Library} {call : Call}
    (clean : lib.Clean (lib.doomed call.cutoff)) (kind : Kind) :
    removedCount lib call kind = ((lib.ids kind).filter (lib.doomed call.cutoff kind)).length := by
  rcases ids_after lib call kind with ⟨-, left⟩ | ⟨held, -⟩
  · rw [removedCount, left, ← List.countP_eq_length_filter]
    refine List.countP_congr fun id present => ?_
    simp [present]
  · exact absurd clean held

theorem removedCount_of_held {lib : Library} {call : Call}
    (held : ¬lib.Clean (lib.doomed call.cutoff)) (kind : Kind) : removedCount lib call kind = 0 := by
  rcases ids_after lib call kind with ⟨clean, -⟩ | ⟨-, left⟩
  · exact absurd clean held
  · rw [removedCount, left, List.countP_eq_zero]
    intro id present
    simp [present]

theorem old_sublist_doomed (lib : Library) (cutoff : Int) (kind : Kind) :
    (lib.oldIds cutoff kind).Sublist ((lib.ids kind).filter (lib.doomed cutoff kind)) := by
  have kept : (lib.oldIds cutoff kind).filter (lib.doomed cutoff kind) = lib.oldIds cutoff kind :=
    List.filter_eq_self.mpr fun id old => Library.doomed_of_mem_oldIds old
  have part := (lib.oldIds_sublist cutoff kind).filter (lib.doomed cutoff kind)
  rwa [kept] at part

/-- Every row that a deletion takes along is counted exactly if it was deleted long ago as well. -/
theorem length_doomed_eq_iff (lib : Library) (cutoff : Int) (kind : Kind) :
    ((lib.ids kind).filter (lib.doomed cutoff kind)).length = (lib.oldIds cutoff kind).length ↔
      ∀ id ∈ lib.ids kind, lib.doomed cutoff kind id = true → id ∈ lib.oldIds cutoff kind := by
  have part := old_sublist_doomed lib cutoff kind
  constructor
  · intro same id present gone
    rw [part.eq_of_length same.symm]
    exact List.mem_filter.mpr ⟨present, gone⟩
  · intro old
    have distinct : ((lib.ids kind).filter (lib.doomed cutoff kind)).Nodup :=
      (lib.nodup_ids kind).filter _
    refine Nat.le_antisymm (distinct.length_le_of_subset fun id found => ?_) part.length_le
    exact old id (List.mem_filter.mp found).1 (List.mem_filter.mp found).2

/-- The dry run tells the truth where all that goes was itself deleted long ago, and nothing holds
it. A run that is refused deletes nothing. -/
theorem tells_the_truth_iff (lib : Library) (call : Call) : TellsTheTruth lib call ↔
    (lib.Clean (lib.doomed call.cutoff) ∧ ∀ kind, (lib.oldIds call.cutoff kind).length < 2 ^ 32 ∧
      ∀ id ∈ lib.ids kind, lib.doomed call.cutoff kind id = true →
        id ∈ lib.oldIds call.cutoff kind) ∨
    (¬lib.Clean (lib.doomed call.cutoff) ∧
      ∀ kind, 2 ^ 32 ∣ (lib.oldIds call.cutoff kind).length) := by
  by_cases clean : lib.Clean (lib.doomed call.cutoff)
  · simp only [clean, true_and, not_true, false_and, or_false]
    refine forall_congr' fun kind => ?_
    have more := (old_sublist_doomed lib call.cutoff kind).length_le
    rw [removedCount_of_clean clean, ← length_doomed_eq_iff, dryRunCount]
    dsimp only
    omega
  · simp only [clean, false_and, not_false_eq_true, true_and, false_or]
    refine forall_congr' fun kind => ?_
    rw [removedCount_of_held clean, Nat.dvd_iff_mod_eq_zero]
    rfl

def albumOfOneSong : Library :=
  ⟨⟨[⟨"blob", none⟩], by decide⟩, ⟨[⟨"song", "blob", none⟩], by decide⟩,
    ⟨[⟨"album", some 0⟩], by decide⟩, ∅, ∅, ∅, ∅, ∅, [], [⟨"album", "song"⟩], [], [], [], [], [], [],
    [], [], [], [], [], [], [], []⟩

def monthLater : Call := ⟨2592001, 0, 30⟩

theorem song_is_not_told : ¬TellsTheTruth albumOfOneSong monthLater := by
  intro told
  have songs := told .song
  revert songs
  decide

end Tomb.Grimoire.Maintenance.HardDelete
