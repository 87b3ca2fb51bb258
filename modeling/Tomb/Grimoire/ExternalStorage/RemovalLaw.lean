import Tomb.Grimoire.ExternalStorage.Removal

/-! What the removal of a source may touch, and when it keeps to that. -/
namespace Tomb.Grimoire.ExternalStorage
open Tomb.Lib

/-- The rows that go are marked, the others stay as they were. -/
def MarksExactly {ρ κ : Type} {key : ρ → κ} (mark : ρ → ρ) (goes : ρ → Prop)
    (before after : Table key) : Prop :=
  ∀ row, row ∈ after ↔ (∃ old ∈ before, goes old ∧ mark old = row) ∨ row ∈ before ∧ ¬ goes row

theorem marksExactly_update_iff {ρ κ : Type} {key : ρ → κ} {table : Table key} {p : ρ → Bool}
    {mark : ρ → ρ} {goes : ρ → Prop} (keeps : ∀ row, key (mark row) = key row)
    (changes : ∀ row ∈ table, p row = true ∨ goes row → mark row ≠ row) :
    MarksExactly mark goes table (table.update p mark keeps) ↔
      ∀ row ∈ table, p row = true ↔ goes row := by
  constructor
  · intro marks row stored
    have after := marks row
    constructor
    · intro picked
      by_contra stays
      obtain ⟨old, stored', same⟩ :=
        (Table.mem_update _ _ _ _ _).mp (after.mpr (.inr ⟨stored, stays⟩))
      have sameKey : key old = key row := by
        rw [← same]
        split
        · exact (keeps old).symm
        · rfl
      cases Table.eq_of_key_eq _ stored' stored sameKey
      rw [if_pos picked] at same
      exact changes row stored (.inl picked) same
    · intro go
      by_contra left
      have kept : row ∈ table.update p mark keeps :=
        (Table.mem_update _ _ _ _ _).mpr ⟨row, stored, if_neg left⟩
      rcases after.mp kept with ⟨old, stored', go', same⟩ | ⟨-, stays⟩
      · have sameKey : key old = key row := by rw [← same, keeps]
        cases Table.eq_of_key_eq _ stored' stored sameKey
        exact changes row stored (.inr go) same
      · exact stays go
  · intro agree row
    rw [Table.mem_update]
    constructor
    · rintro ⟨old, stored, same⟩
      split at same
      · rename_i picked
        exact .inl ⟨old, stored, (agree old stored).mp picked, same⟩
      · rename_i left
        cases same
        exact .inr ⟨stored, fun go => left ((agree row stored).mpr go)⟩
    · rintro (⟨old, stored, go, same⟩ | ⟨stored, stays⟩)
      · exact ⟨old, stored, by rw [if_pos ((agree old stored).mpr go), same]⟩
      · exact ⟨row, stored, if_neg fun picked => stays ((agree row stored).mp picked)⟩

theorem Media.markDeleted_id (now : Int) (media : Media) :
    (media.markDeleted now).id = media.id := rfl

theorem Media.markDeleted_ne {media : Media} (live : media.deletedAt = none) (now : Int) :
    media.markDeleted now ≠ media := by
  intro same
  cases (congrArg Media.deletedAt same).trans live

theorem Video.markDeleted_id (now : Int) (video : Video) :
    (video.markDeleted now).id = video.id := rfl

theorem Video.markDeleted_ne {video : Video} (live : video.deletedAt = none) (now : Int) :
    video.markDeleted now ≠ video := by
  intro same
  cases (congrArg (fun row : Video => row.deletedAt) same).trans live

theorem Container.markDeleted_id (now : Int) (row : Container) :
    (row.markDeleted now).id = row.id := rfl

theorem Container.markDeleted_ne {row : Container} (live : row.deletedAt = none) (now : Int) :
    row.markDeleted now ≠ row := by
  intro same
  cases (congrArg Container.deletedAt same).trans live

namespace Library

variable (lib : Library) (id : String)

def Has (blobId : String) : Prop := (⟨blobId, id⟩ : SourceMedia) ∈ lib.sources.librarySourceMediaz

def HasAlone (blobId : String) : Prop :=
  lib.Has id blobId ∧ ∀ other, lib.Has other blobId → other = id

def MediaGoes (media : Media) : Prop := media.deletedAt = none ∧ lib.HasAlone id media.mediaBlobId

def MediaStays (media : Media) : Prop :=
  media.deletedAt = none ∧ ¬ lib.HasAlone id media.mediaBlobId

def SongHad (songId : String) : Prop :=
  ∃ song ∈ lib.songz, song.id = songId ∧ lib.Has id song.mediaBlobId

def VideoHad (column : Video → Option String) (key : String) : Prop :=
  ∃ video ∈ lib.videoz, column video = some key ∧ lib.Has id video.mediaBlobId

def SongLeft (songId : String) : Prop :=
  ∃ song ∈ lib.songz, song.id = songId ∧ lib.MediaStays id song

def VideoLeft (column : Video → Option String) (key : String) : Prop :=
  ∃ video ∈ lib.videoz, column video = some key ∧ lib.MediaStays id video.toMedia

def AlbumHad (albumId : String) : Prop :=
  (∃ link ∈ lib.albumSongz, link.albumId = albumId ∧ lib.SongHad id link.songId) ∨
    lib.VideoHad id (·.albumId) albumId

def AlbumLeft (albumId : String) : Prop :=
  (∃ link ∈ lib.albumSongz, link.albumId = albumId ∧ lib.SongLeft id link.songId) ∨
    lib.VideoLeft id (·.albumId) albumId

/-- A live album that had an item on the source and has no live one left. -/
def AlbumGoes (album : Container) : Prop :=
  album.deletedAt = none ∧ lib.AlbumHad id album.id ∧ ¬ lib.AlbumLeft id album.id

/-- The items of an artist are songs and videos of their own and those of their albums. -/
def ArtistHad (artistId : String) : Prop :=
  (∃ link ∈ lib.artistSongz, link.artistId = artistId ∧ lib.SongHad id link.songId) ∨
    lib.VideoHad id (·.artistId) artistId ∨
    ∃ link ∈ lib.artistAlbumz, link.artistId = artistId ∧ lib.AlbumHad id link.albumId

def ArtistLeft (artistId : String) : Prop :=
  (∃ link ∈ lib.artistSongz, link.artistId = artistId ∧ lib.SongLeft id link.songId) ∨
    (∃ link ∈ lib.artistAlbumz, link.artistId = artistId ∧
      ∃ album ∈ lib.albumz, album.id = link.albumId ∧ album.deletedAt = none ∧
        ¬ lib.AlbumGoes id album) ∨
    lib.VideoLeft id (·.artistId) artistId

def ArtistGoes (artist : Container) : Prop :=
  artist.deletedAt = none ∧ lib.ArtistHad id artist.id ∧ ¬ lib.ArtistLeft id artist.id

def GroupGoes (column : Video → Option String) (group : Container) : Prop :=
  group.deletedAt = none ∧ lib.VideoHad id column group.id ∧ ¬ lib.VideoLeft id column group.id

/-- Inside a root of the source and outside every root of the others. -/
def TrackedOnly (path : String) : Prop :=
  (∃ root ∈ lib.sources.librarySourcePathz, root.sourceId = id ∧
      components root.path.chars <+: components path.toList) ∧
    ∀ root ∈ lib.sources.librarySourcePathz, root.sourceId ≠ id →
      ¬ components root.path.chars <+: components path.toList

/-- The removal of the source has touched its own media and nothing else. -/
structure RemovesOnly (clock : Query → Int) (after : Library) : Prop where
  songs : MarksExactly (Media.markDeleted (clock .markSongs)) (lib.MediaGoes id) lib.songz
    after.songz
  videos : MarksExactly (Video.markDeleted (clock .markVideos))
    (fun video => lib.MediaGoes id video.toMedia) lib.videoz after.videoz
  albums : MarksExactly (Container.markDeleted (clock .markAlbums)) (lib.AlbumGoes id) lib.albumz
    after.albumz
  artists : MarksExactly (Container.markDeleted (clock .markArtists)) (lib.ArtistGoes id)
    lib.artistz after.artistz
  seasons : MarksExactly (Container.markDeleted (clock .markSeasons))
    (lib.GroupGoes id (·.seasonId)) lib.videoSeasonz after.videoSeasonz
  series : MarksExactly (Container.markDeleted (clock .markSeries))
    (lib.GroupGoes id (·.seriesId)) lib.videoSeriez after.videoSeriez
  directories : (∀ directory ∈ after.scannedDirectories, directory ∈ lib.scannedDirectories) ∧
    ∀ directory ∈ lib.scannedDirectories, directory ∉ after.scannedDirectories →
      lib.TrackedOnly id directory.path
  rules : (∀ rule ∈ after.directoryTagRules, rule ∈ lib.directoryTagRules) ∧
    ∀ rule ∈ lib.directoryTagRules, rule ∉ after.directoryTagRules →
      lib.TrackedOnly id rule.directoryPath
  links : after.albumSongz = lib.albumSongz ∧ after.artistSongz = lib.artistSongz ∧
    after.artistAlbumz = lib.artistAlbumz
  jobs : after.jobz = lib.jobz
  blobs : after.sources.mediaBlobz = lib.sources.mediaBlobz
  targets : after.sources.storageSyncTargetz = lib.sources.storageSyncTargetz
  sourceRows : ∀ source, source ∈ after.sources.librarySourcez ↔
    source ∈ lib.sources.librarySourcez ∧ source.id ≠ id
  stateRows : ∀ state, state ∈ after.sources.librarySourceStatez ↔
    state ∈ lib.sources.librarySourceStatez ∧ state.sourceId ≠ id
  pathRows : ∀ root, root ∈ after.sources.librarySourcePathz ↔
    root ∈ lib.sources.librarySourcePathz ∧ root.sourceId ≠ id
  mediaRows : ∀ media, media ∈ after.sources.librarySourceMediaz ↔
    media ∈ lib.sources.librarySourceMediaz ∧ media.sourceId ≠ id

/-- A removal touches only what is the source's, and nothing when it fails. -/
def KeepsToItsMedia (fails : Query → Bool) (clock : Query → Int) (mediaFirst : Bool) : Prop :=
  match lib.removeSource fails clock mediaFirst id with
  | (after, .ok ()) => lib.RemovesOnly id clock after
  | (after, .error _) => after = lib

def Asks : Query → Prop
  | .deleteDirectory path | .deleteRules path =>
    (∃ directory ∈ lib.scannedDirectories, directory.path = path) ∧
      isTrackedFor (lib.sourceRoots id) (lib.otherRoots id) path = true
  | _ => True

/-- The removal gets through: the source is there and not reserved, no job of the library is live,
and the database answers. -/
structure Accepted (fails : Query → Bool) : Prop where
  source : ∃ source ∈ lib.sources.librarySourcez, source.id = id ∧
    isSyncSource lib.sources.listTargets source = false
  idle : lib.busy = false
  answered : ∀ query, lib.Asks id query → fails query = false

end Library

namespace Library

variable {lib : Library} {id : String}

theorem onSource_iff {blobId : String} : lib.onSource id blobId = true ↔ lib.Has id blobId := by
  unfold onSource Has
  rw [List.any_eq_true]
  constructor
  · rintro ⟨⟨blob, source⟩, stored, same⟩
    obtain ⟨rfl, rfl⟩ : blob = blobId ∧ source = id := by simpa using same
    exact stored
  · intro stored
    exact ⟨_, stored, by simp⟩

theorem onlyOnSource_iff {blobId : String} :
    lib.onlyOnSource id blobId = true ↔ lib.HasAlone id blobId := by
  unfold onlyOnSource HasAlone
  rw [List.any_eq_true]
  constructor
  · rintro ⟨⟨blob, source⟩, stored, same⟩
    simp only [Bool.and_eq_true, decide_eq_true_eq, Bool.not_eq_true', List.any_eq_false, not_and,
      not_not] at same
    obtain ⟨⟨rfl, rfl⟩, alone⟩ := same
    exact ⟨stored, fun other has => alone _ has rfl⟩
  · rintro ⟨stored, alone⟩
    refine ⟨_, stored, ?_⟩
    simp only [Bool.and_eq_true, decide_eq_true_eq, Bool.not_eq_true', List.any_eq_false, not_and,
      not_not]
    refine ⟨⟨trivial, trivial⟩, ?_⟩
    rintro ⟨blob, source⟩ stored' rfl
    exact alone source stored'

def mediaMarked (clock : Query → Int) (id : String) (lib : Library) : Library :=
  (lib.markSongs id (clock .markSongs)).markVideos id (clock .markVideos)

section MediaMarked

variable {clock : Query → Int}

def Link (column : Video → Option String) : Prop :=
  ∀ now video, column (video.markDeleted now) = column video

theorem songOnSource_mediaMarked (songId : String) :
    (lib.mediaMarked clock id).songOnSource id songId = lib.songOnSource id songId := by
  unfold songOnSource
  change (List.map _ _).any _ = _
  rw [List.any_map]
  refine congrArg (lib.songz.rows.any ·) (funext fun song => ?_)
  rw [Function.comp_apply]
  split <;> rfl

variable {column : Video → Option String}

theorem videoOnSource_mediaMarked (link : Link column) (key : String) :
    (lib.mediaMarked clock id).videoOnSource id column key = lib.videoOnSource id column key := by
  unfold videoOnSource
  change (List.map _ _).any _ = _
  rw [List.any_map]
  refine congrArg (lib.videoz.rows.any ·) (funext fun video => ?_)
  rw [Function.comp_apply]
  split
  · rw [link]
    rfl
  · rfl

theorem liveSong_mediaMarked {songId : String} :
    (lib.mediaMarked clock id).liveSong songId = true ↔ lib.SongLeft id songId := by
  unfold liveSong SongLeft MediaStays
  change (List.map _ _).any _ = true ↔ _
  rw [List.any_map, List.any_eq_true]
  refine exists_congr fun song => and_congr_right fun _ => ?_
  rw [Function.comp_apply, ← onlyOnSource_iff]
  split
  · rename_i picked
    obtain ⟨-, alone⟩ := Bool.and_eq_true _ _ ▸ picked
    simp [Media.markDeleted, alone]
  · rename_i left
    rw [Bool.and_eq_true, Option.isNone_iff_eq_none] at left
    simp only [Bool.and_eq_true, decide_eq_true_eq, Option.isNone_iff_eq_none]
    exact and_congr_right fun _ => ⟨fun live => ⟨live, fun alone => left ⟨live, alone⟩⟩, And.left⟩

theorem liveVideo_mediaMarked {column : Video → Option String} {key : String} :
    (lib.mediaMarked clock id).liveVideo column key = true ↔ lib.VideoLeft id column key := by
  unfold liveVideo VideoLeft MediaStays
  change (List.map _ _).any _ = true ↔ _
  rw [List.any_map, List.any_eq_true]
  refine exists_congr fun video => and_congr_right fun _ => ?_
  rw [Function.comp_apply, ← onlyOnSource_iff]
  split
  · rename_i picked
    obtain ⟨-, alone⟩ := Bool.and_eq_true _ _ ▸ picked
    have alone : lib.onlyOnSource id video.mediaBlobId = true := alone
    simp [Video.markDeleted, alone]
  · rename_i left
    rw [Bool.and_eq_true, Option.isNone_iff_eq_none] at left
    simp only [Bool.and_eq_true, decide_eq_true_eq, Option.isNone_iff_eq_none]
    exact and_congr_right fun _ => ⟨fun live => ⟨live, fun alone => left ⟨live, alone⟩⟩, And.left⟩

theorem songOnSource_iff {songId : String} :
    lib.songOnSource id songId = true ↔ lib.SongHad id songId := by
  unfold songOnSource SongHad
  simp only [List.any_eq_true, Bool.and_eq_true, decide_eq_true_eq, onSource_iff, Table.mem_def]

theorem videoOnSource_iff {key : String} :
    lib.videoOnSource id column key = true ↔ lib.VideoHad id column key := by
  unfold videoOnSource VideoHad
  simp only [List.any_eq_true, Bool.and_eq_true, decide_eq_true_eq, onSource_iff, Table.mem_def]

theorem albumSongOnSource_iff {albumId : String} : lib.albumSongOnSource id albumId = true ↔
    ∃ link ∈ lib.albumSongz, link.albumId = albumId ∧ lib.SongHad id link.songId := by
  unfold albumSongOnSource
  simp only [List.any_eq_true, Bool.and_eq_true, decide_eq_true_eq, songOnSource_iff]

/-- What the query for artists misses: videos that only an album of theirs leads to. -/
def AlbumVideoHad (lib : Library) (id artistId : String) : Prop :=
  ∃ link ∈ lib.artistAlbumz, link.artistId = artistId ∧ lib.VideoHad id (·.albumId) link.albumId

theorem artistHad_iff {artistId : String} : lib.ArtistHad id artistId ↔
    lib.artistOnSource id artistId = true ∨ lib.AlbumVideoHad id artistId := by
  unfold ArtistHad artistOnSource AlbumVideoHad AlbumHad artistSongOnSource artistAlbumSongOnSource
  simp only [Bool.or_eq_true, List.any_eq_true, Bool.and_eq_true, decide_eq_true_eq,
    songOnSource_iff, videoOnSource_iff, albumSongOnSource_iff, and_or_left, exists_or, or_assoc]

theorem albumSongOnSource_mediaMarked (albumId : String) :
    (lib.mediaMarked clock id).albumSongOnSource id albumId = lib.albumSongOnSource id albumId := by
  unfold albumSongOnSource
  simp only [songOnSource_mediaMarked]
  rfl

theorem artistOnSource_mediaMarked (artistId : String) :
    (lib.mediaMarked clock id).artistOnSource id artistId = lib.artistOnSource id artistId := by
  unfold artistOnSource artistSongOnSource artistAlbumSongOnSource
  rw [videoOnSource_mediaMarked fun _ _ => rfl]
  simp only [songOnSource_mediaMarked, albumSongOnSource_mediaMarked]
  rfl

theorem albumLeft_iff {albumId : String} : lib.AlbumLeft id albumId ↔
    (lib.mediaMarked clock id).albumLiveSong albumId = true ∨
      (lib.mediaMarked clock id).liveVideo (·.albumId) albumId = true := by
  unfold AlbumLeft albumLiveSong
  simp only [List.any_eq_true, Bool.and_eq_true, decide_eq_true_eq, liveSong_mediaMarked,
    liveVideo_mediaMarked]
  rfl

theorem albumGoes_iff (album : Container) :
    (album.deletedAt.isNone && ((lib.mediaMarked clock id).albumSongOnSource id album.id ||
        (lib.mediaMarked clock id).videoOnSource id (·.albumId) album.id) &&
      !(lib.mediaMarked clock id).albumLiveSong album.id &&
      !(lib.mediaMarked clock id).liveVideo (·.albumId) album.id) = true ↔ lib.AlbumGoes id album := by
  rw [AlbumGoes, AlbumHad, @albumLeft_iff lib id clock, albumSongOnSource_mediaMarked,
    videoOnSource_mediaMarked fun _ _ => rfl]
  simp only [Bool.and_eq_true, Bool.or_eq_true, Option.isNone_iff_eq_none, Bool.not_eq_true',
    albumSongOnSource_iff, videoOnSource_iff, not_or, Bool.not_eq_true, and_assoc]

def albumsMarked (clock : Query → Int) (id : String) (lib : Library) : Library :=
  (lib.mediaMarked clock id).markAlbums id (clock .markAlbums)

theorem liveAlbum_iff {albumId : String} :
    (((lib.albumsMarked clock id).albumz.rows.any fun album =>
      album.id = albumId && album.deletedAt.isNone) = true) ↔
      ∃ album ∈ lib.albumz, album.id = albumId ∧ album.deletedAt = none ∧
        ¬ lib.AlbumGoes id album := by
  change (List.map _ _).any _ = true ↔ _
  rw [List.any_map, List.any_eq_true]
  refine exists_congr fun album => and_congr_right fun _ => ?_
  rw [Function.comp_apply, ← @albumGoes_iff lib id clock]
  split
  · rename_i picked
    simp [Container.markDeleted, picked]
  · rename_i left
    rw [Bool.and_eq_true, decide_eq_true_eq, Option.isNone_iff_eq_none]
    exact and_congr_right fun _ => (and_iff_left left).symm

theorem artistLeft_iff {artistId : String} : lib.ArtistLeft id artistId ↔
    (lib.albumsMarked clock id).artistLiveSong artistId = true ∨
      (lib.albumsMarked clock id).artistLiveAlbum artistId = true ∨
      (lib.albumsMarked clock id).liveVideo (·.artistId) artistId = true := by
  unfold ArtistLeft artistLiveSong artistLiveAlbum
  refine or_congr ?_ (or_congr ?_ ?_)
  · change _ ↔ (lib.artistSongz.any fun link => link.artistId = artistId &&
      (lib.mediaMarked clock id).liveSong link.songId) = true
    simp only [List.any_eq_true, Bool.and_eq_true, decide_eq_true_eq, liveSong_mediaMarked]
  · change _ ↔ (lib.artistAlbumz.any fun link => link.artistId = artistId && _) = true
    rw [List.any_eq_true]
    refine exists_congr fun link => and_congr_right fun _ => ?_
    rw [Bool.and_eq_true, decide_eq_true_eq, liveAlbum_iff]
  · exact liveVideo_mediaMarked.symm

def ArtistPicked (lib : Library) (id : String) (artist : Container) : Prop :=
  artist.deletedAt = none ∧ lib.artistOnSource id artist.id = true ∧ ¬ lib.ArtistLeft id artist.id

theorem artistPicked_iff (artist : Container) :
    (artist.deletedAt.isNone &&
        (lib.albumsMarked clock id).artistOnSource id artist.id &&
      !(lib.albumsMarked clock id).artistLiveSong artist.id &&
      !(lib.albumsMarked clock id).artistLiveAlbum artist.id &&
      !(lib.albumsMarked clock id).liveVideo (·.artistId) artist.id) =
        true ↔ lib.ArtistPicked id artist := by
  have same : (lib.albumsMarked clock id).artistOnSource id artist.id =
      lib.artistOnSource id artist.id :=
    @artistOnSource_mediaMarked lib id clock artist.id
  rw [ArtistPicked, @artistLeft_iff lib id clock, same]
  simp only [Bool.and_eq_true, Option.isNone_iff_eq_none, Bool.not_eq_true', not_or,
    Bool.not_eq_true, and_assoc]

/-- An artist that should go is picked unless only a video of an album leads to them. -/
theorem artistPicked_iff_goes (artist : Container) :
    (lib.ArtistPicked id artist ↔ lib.ArtistGoes id artist) ↔
      (artist.deletedAt = none → ¬ lib.ArtistLeft id artist.id → lib.AlbumVideoHad id artist.id →
        lib.artistOnSource id artist.id = true) := by
  unfold ArtistPicked ArtistGoes
  rw [artistHad_iff]
  tauto

theorem groupGoes_iff (link : Link column) (group : Container) :
    (group.deletedAt.isNone && (lib.mediaMarked clock id).videoOnSource id column group.id &&
      !(lib.mediaMarked clock id).liveVideo column group.id) = true ↔
        lib.GroupGoes id column group := by
  rw [GroupGoes, videoOnSource_mediaMarked link, ← @liveVideo_mediaMarked lib id clock]
  simp only [Bool.and_eq_true, Option.isNone_iff_eq_none, Bool.not_eq_true', Bool.not_eq_true,
    videoOnSource_iff, and_assoc]

def marked (clock : Query → Int) (id : String) (lib : Library) : Library :=
  (((lib.albumsMarked clock id).markArtists id
    (clock .markArtists)).markSeasons id (clock .markSeasons)).markSeries id (clock .markSeries)

end MediaMarked

theorem bind_eq_ok_iff {α β : Type} {first : Except RemovalError α}
    {next : α → Except RemovalError β} {result : β} :
    (first >>= next) = .ok result ↔ ∃ value, first = .ok value ∧ next value = .ok result := by
  cases first with
  | error error => exact ⟨nofun, nofun⟩
  | ok value =>
    exact ⟨fun done => ⟨value, rfl, done⟩, fun ⟨_, same, done⟩ => Except.ok.inj same ▸ done⟩

section Run

variable {fails : Query → Bool} {clock : Query → Int} {mediaFirst : Bool}

theorem removeRow_ok (lib : Library) (mediaFirst : Bool) (id : String) :
    ∃ paths medias, lib.removeRow mediaFirst id = .ok { lib with sources := { lib.sources with
        librarySourcez := lib.sources.librarySourcez.deleteWhere (·.id = id)
        librarySourceStatez := lib.sources.librarySourceStatez.deleteWhere (·.sourceId = id)
        librarySourcePathz := paths
        librarySourceMediaz := medias } } ∧
      (∀ root, root ∈ paths ↔ root ∈ lib.sources.librarySourcePathz ∧ root.sourceId ≠ id) ∧
      ∀ media, media ∈ medias ↔ media ∈ lib.sources.librarySourceMediaz ∧ media.sourceId ≠ id := by
  obtain ⟨paths, medias, done, members⟩ := lib.sources.deleteSource_frame id mediaFirst
  refine ⟨paths, medias, ?_, members⟩
  rw [removeRow, done]

def steady : List Query :=
  [.getSource, .listTargets, .begin, .lockSource, .activeJobs, .markSongs, .markVideos, .markAlbums,
    .markArtists, .markSeasons, .markSeries, .sourceRoots, .otherRoots, .directories, .deleteSource]

theorem removal_eq_ok_iff {after : Library} : lib.removal fails clock mediaFirst id = .ok after ↔
    (∃ source ∈ lib.sources.librarySourcez, source.id = id ∧
      isSyncSource lib.sources.listTargets source = false) ∧ lib.busy = false ∧
    (∀ query ∈ steady, fails query = false) ∧
    ∃ between, lib.scannedDirectories.rows.foldlM
        (removeDirectory fails (lib.sourceRoots id) (lib.otherRoots id)) (lib.marked clock id) =
          .ok between ∧ between.removeRow mediaFirst id = .ok after := by
  unfold removal steady
  simp only [asked_bind_iff, findSource_bind_iff, refusedUnless_bind_iff]
  simp only [bind_eq_ok_iff]
  simp only [asked_eq_ok_iff, exists_const, List.forall_mem_cons, Bool.not_eq_true']
  constructor
  · rintro ⟨getSource, source, stored, named, listTargets, free, begin, lockSource, activeJobs,
      idle, songs, videos, albums, artists, seasons, series, sourceRoots, otherRoots, directories,
      between, removed, deleteSource, done⟩
    exact ⟨⟨source, stored, named, free⟩, idle, ⟨getSource, listTargets, begin, lockSource,
      activeJobs, songs, videos, albums, artists, seasons, series, sourceRoots, otherRoots,
      directories, deleteSource, nofun⟩, between, removed, done⟩
  · rintro ⟨⟨source, stored, named, free⟩, idle, ⟨getSource, listTargets, begin, lockSource,
      activeJobs, songs, videos, albums, artists, seasons, series, sourceRoots, otherRoots,
      directories, deleteSource, -⟩, between, removed, done⟩
    exact ⟨getSource, source, stored, named, listTargets, free, begin, lockSource, activeJobs,
      idle, songs, videos, albums, artists, seasons, series, sourceRoots, otherRoots, directories,
      between, removed, deleteSource, done⟩

theorem removal_after {after : Library} (done : lib.removal fails clock mediaFirst id = .ok after) :
    ∃ scanned rules paths medias, after = { lib.marked clock id with
        scannedDirectories := scanned
        directoryTagRules := rules
        sources := { lib.sources with
          librarySourcez := lib.sources.librarySourcez.deleteWhere (·.id = id)
          librarySourceStatez := lib.sources.librarySourceStatez.deleteWhere (·.sourceId = id)
          librarySourcePathz := paths
          librarySourceMediaz := medias } } ∧
      (∀ row, row ∈ scanned ↔ row ∈ lib.scannedDirectories ∧
        isTrackedFor (lib.sourceRoots id) (lib.otherRoots id) row.path = false) ∧
      (∀ rule, rule ∈ rules ↔ rule ∈ lib.directoryTagRules ∧
        ∀ directory ∈ lib.scannedDirectories, directory.path = rule.directoryPath →
          isTrackedFor (lib.sourceRoots id) (lib.otherRoots id) rule.directoryPath = false) ∧
      (∀ root, root ∈ paths ↔ root ∈ lib.sources.librarySourcePathz ∧ root.sourceId ≠ id) ∧
      ∀ media, media ∈ medias ↔ media ∈ lib.sources.librarySourceMediaz ∧ media.sourceId ≠ id := by
  obtain ⟨-, -, -, between, dropped, done⟩ := removal_eq_ok_iff.mp done
  obtain ⟨-, rfl⟩ := removeDirectories_eq_ok_iff.mp dropped
  obtain ⟨scanned, rules, fold, members, members'⟩ := dropDirectories_spec
    (lib.scannedDirectories.rows.filter fun row =>
      isTrackedFor (lib.sourceRoots id) (lib.otherRoots id) row.path) (lib.marked clock id)
  rw [fold] at done
  obtain ⟨paths, medias, removed, roots, stays⟩ := removeRow_ok
    { lib.marked clock id with scannedDirectories := scanned, directoryTagRules := rules }
    mediaFirst id
  rw [removed] at done
  cases Except.ok.inj done
  refine ⟨scanned, rules, paths, medias, rfl, fun row => ?_, fun rule => ?_, roots, stays⟩
  · rw [members row]
    refine and_congr_right fun stored => ?_
    rw [← Bool.not_eq_true]
    constructor
    · intro other tracked
      exact other row (List.mem_filter.mpr ⟨stored, tracked⟩) rfl
    · rintro outside directory member same
      exact outside (same ▸ (List.mem_filter.mp member).2)
  · rw [members' rule]
    refine and_congr_right fun _ => ?_
    constructor
    · intro other directory stored same
      rw [← Bool.not_eq_true]
      intro tracked
      exact other directory (List.mem_filter.mpr ⟨stored, same.symm ▸ tracked⟩) same.symm
    · rintro outside directory member same
      obtain ⟨stored, tracked⟩ := List.mem_filter.mp member
      have left := outside directory stored same.symm
      rw [same, tracked] at left
      cases left

theorem accepted_iff : lib.Accepted id fails ↔
    (∃ copy, lib.removal fails clock mediaFirst id = .ok copy) ∧ fails .commit = false := by
  constructor
  · intro accepted
    have tracked : ∀ directory ∈ lib.scannedDirectories.rows,
        isTrackedFor (lib.sourceRoots id) (lib.otherRoots id) directory.path = true →
          fails (.deleteDirectory directory.path) = false ∧
            fails (.deleteRules directory.path) = false := fun directory stored tracked =>
      ⟨accepted.answered _ ⟨⟨directory, stored, rfl⟩, tracked⟩,
        accepted.answered _ ⟨⟨directory, stored, rfl⟩, tracked⟩⟩
    obtain ⟨paths, medias, done, -⟩ := removeRow_ok
      ((lib.scannedDirectories.rows.filter fun row =>
        isTrackedFor (lib.sourceRoots id) (lib.otherRoots id) row.path).foldl
        (fun lib directory => lib.dropDirectory directory.path) (lib.marked clock id)) mediaFirst id
    refine ⟨⟨_, removal_eq_ok_iff.mpr ⟨accepted.source, accepted.idle, ?_, _,
      removeDirectories_eq_ok_iff.mpr ⟨tracked, rfl⟩, done⟩⟩, accepted.answered .commit trivial⟩
    simp only [steady, List.forall_mem_cons]
    exact ⟨accepted.answered _ trivial, accepted.answered _ trivial, accepted.answered _ trivial,
      accepted.answered _ trivial, accepted.answered _ trivial, accepted.answered _ trivial,
      accepted.answered _ trivial, accepted.answered _ trivial, accepted.answered _ trivial,
      accepted.answered _ trivial, accepted.answered _ trivial, accepted.answered _ trivial,
      accepted.answered _ trivial, accepted.answered _ trivial, accepted.answered _ trivial, nofun⟩
  · rintro ⟨⟨copy, done⟩, commit⟩
    obtain ⟨source, idle, answered, between, dropped, -⟩ := removal_eq_ok_iff.mp done
    obtain ⟨tracked, -⟩ := removeDirectories_eq_ok_iff.mp dropped
    refine ⟨source, idle, fun query asks => ?_⟩
    cases query with
    | deleteDirectory path =>
      obtain ⟨⟨directory, stored, rfl⟩, within⟩ := asks
      exact (tracked directory stored within).1
    | deleteRules path =>
      obtain ⟨⟨directory, stored, rfl⟩, within⟩ := asks
      exact (tracked directory stored within).2
    | commit => exact commit
    | _ => exact answered _ (by simp [steady])

theorem trackedOnly_of_isTrackedFor {path : String}
    (tracked : isTrackedFor (lib.sourceRoots id) (lib.otherRoots id) path = true) :
    lib.TrackedOnly id path := by
  obtain ⟨within, apart⟩ := Bool.and_eq_true _ _ ▸ tracked
  constructor
  · obtain ⟨root, listed, begins⟩ := List.any_eq_true.mp within
    obtain ⟨row, member, rfl⟩ := List.mem_map.mp listed
    obtain ⟨stored, named⟩ := List.mem_filter.mp member
    exact ⟨row, stored, of_decide_eq_true named, List.isPrefixOf_iff_prefix.mp begins⟩
  · intro row stored other begins
    rw [Bool.not_eq_true', List.any_eq_false] at apart
    have listed : row.path ∈ lib.otherRoots id :=
      List.mem_map.mpr ⟨row, List.mem_filter.mpr ⟨stored, decide_eq_true other⟩, rfl⟩
    refine apart row.path listed ?_
    rw [startsWith, List.isPrefixOf_iff_prefix.mpr begins, Bool.true_or]

theorem markedArtists_iff : MarksExactly (Container.markDeleted (clock .markArtists))
    (lib.ArtistGoes id) lib.artistz (lib.marked clock id).artistz ↔
      ∀ artist ∈ lib.artistz, lib.ArtistPicked id artist ↔ lib.ArtistGoes id artist := by
  refine (marksExactly_update_iff (Container.markDeleted_id _) ?_).trans ?_
  · rintro artist - (picked | goes)
    · exact Container.markDeleted_ne ((artistPicked_iff artist).mp picked).1 _
    · exact Container.markDeleted_ne goes.1 _
  · exact forall₂_congr fun artist _ => iff_congr (artistPicked_iff artist) Iff.rfl

theorem markedSongs : MarksExactly (Media.markDeleted (clock .markSongs)) (lib.MediaGoes id)
    lib.songz (lib.marked clock id).songz := by
  have agree (song : Media) :
      (song.deletedAt.isNone && lib.onlyOnSource id song.mediaBlobId) = true ↔
        lib.MediaGoes id song := by
    rw [Bool.and_eq_true, Option.isNone_iff_eq_none, onlyOnSource_iff, MediaGoes]
  refine (marksExactly_update_iff (Media.markDeleted_id _) ?_).mpr fun song _ => agree song
  rintro song - (picked | goes)
  · exact Media.markDeleted_ne ((agree song).mp picked).1 _
  · exact Media.markDeleted_ne goes.1 _

theorem markedVideos : MarksExactly (Video.markDeleted (clock .markVideos))
    (fun video => lib.MediaGoes id video.toMedia) lib.videoz (lib.marked clock id).videoz := by
  have agree (video : Video) :
      (video.deletedAt.isNone && lib.onlyOnSource id video.mediaBlobId) = true ↔
        lib.MediaGoes id video.toMedia := by
    rw [Bool.and_eq_true, Option.isNone_iff_eq_none, onlyOnSource_iff, MediaGoes]
  refine (marksExactly_update_iff (Video.markDeleted_id _) ?_).mpr fun video _ => agree video
  rintro video - (picked | goes)
  · exact Video.markDeleted_ne ((agree video).mp picked).1 _
  · exact Video.markDeleted_ne goes.1 _

theorem markedAlbums : MarksExactly (Container.markDeleted (clock .markAlbums)) (lib.AlbumGoes id)
    lib.albumz (lib.marked clock id).albumz := by
  refine (marksExactly_update_iff (Container.markDeleted_id _) ?_).mpr
    fun album _ => albumGoes_iff album
  rintro album - (picked | goes)
  · exact Container.markDeleted_ne ((albumGoes_iff album).mp picked).1 _
  · exact Container.markDeleted_ne goes.1 _

theorem markedGroups {column : Video → Option String} (link : Link column) (now : Int)
    (groups : Table Container.id) :
    MarksExactly (Container.markDeleted now) (lib.GroupGoes id column) groups
      ((lib.mediaMarked clock id).markGroups id column now groups) := by
  refine (marksExactly_update_iff (Container.markDeleted_id _) ?_).mpr
    fun group _ => groupGoes_iff link group
  rintro group - (picked | goes)
  · exact Container.markDeleted_ne ((groupGoes_iff link group).mp picked).1 _
  · exact Container.markDeleted_ne goes.1 _

theorem removesOnly_iff {after : Library}
    (done : lib.removal fails clock mediaFirst id = .ok after) :
    lib.RemovesOnly id clock after ↔
      ∀ artist ∈ lib.artistz, lib.ArtistPicked id artist ↔ lib.ArtistGoes id artist := by
  obtain ⟨scanned, rules, paths, medias, rfl, members, members', roots, stays⟩ := removal_after done
  constructor
  · intro only
    exact markedArtists_iff.mp only.artists
  · intro agree
    refine ⟨markedSongs, markedVideos, markedAlbums, markedArtists_iff.mpr agree,
      markedGroups (fun _ _ => rfl) _ _, markedGroups (fun _ _ => rfl) _ _, ⟨?_, ?_⟩, ⟨?_, ?_⟩,
      ⟨rfl, rfl, rfl⟩, rfl, rfl, rfl, fun source => ?_, fun state => ?_, roots, stays⟩
    · exact fun directory member => ((members directory).mp member).1
    · intro directory stored gone
      refine trackedOnly_of_isTrackedFor ?_
      rw [← Bool.not_eq_false]
      exact fun outside => gone ((members directory).mpr ⟨stored, outside⟩)
    · exact fun rule member => ((members' rule).mp member).1
    · intro rule stored gone
      refine trackedOnly_of_isTrackedFor ?_
      rw [← Bool.not_eq_false]
      exact fun outside => gone ((members' rule).mpr ⟨stored, fun _ _ _ => outside⟩)
    · exact (Table.mem_deleteWhere _ _ _).trans (and_congr_right fun _ => decide_eq_false_iff_not)
    · exact (Table.mem_deleteWhere _ _ _).trans (and_congr_right fun _ => decide_eq_false_iff_not)

/-- The removal keeps to the media of the source unless an artist is left over whom only a video of
an album leads to. -/
theorem keepsToItsMedia_iff (lib : Library) (id : String) (fails : Query → Bool)
    (clock : Query → Int) (mediaFirst : Bool) :
    lib.KeepsToItsMedia id fails clock mediaFirst ↔
      (lib.Accepted id fails → ∀ artist ∈ lib.artistz, artist.deletedAt = none →
        ¬ lib.ArtistLeft id artist.id → lib.AlbumVideoHad id artist.id →
          lib.artistOnSource id artist.id = true) := by
  simp only [← artistPicked_iff_goes]
  rw [@accepted_iff lib id fails clock mediaFirst]
  unfold KeepsToItsMedia removeSource
  cases done : lib.removal fails clock mediaFirst id with
  | error error => exact ⟨fun _ ⟨⟨_, same⟩, _⟩ => (nomatch same), fun _ => rfl⟩
  | ok copy =>
    cases commit : fails .commit with
    | true =>
      simp only [asked, commit, if_true]
      exact ⟨fun _ ⟨_, same⟩ => (nomatch same), fun _ => trivial⟩
    | false =>
      simp only [asked, commit, Bool.false_eq_true, if_false]
      rw [removesOnly_iff done]
      exact ⟨fun agree _ => agree, fun agree => agree ⟨⟨copy, rfl⟩, trivial⟩⟩

end Run

def compilation : Library where
  sources := {
    mediaBlobz := ⟨[⟨"blob", some ⟨"/disk/clip".toList, by decide⟩⟩], List.nodup_singleton _⟩
    librarySourcez := ⟨[⟨"disk", "disk", none, none, none, ⟨[], by decide⟩,
      ⟨"/disk".toList, by decide⟩, .both⟩], List.nodup_singleton _⟩
    librarySourcePathz := ⟨[⟨"disk", ⟨"/disk".toList, by decide⟩⟩], List.nodup_singleton _⟩
    librarySourceStatez := ∅
    librarySourceMediaz := ⟨[⟨"blob", "disk"⟩], List.nodup_singleton _⟩
    storageSyncTargetz := ∅ }
  songz := ∅
  videoz := ⟨[⟨⟨"clip", "blob", none⟩, some "guest", some "hits", none, none⟩],
    List.nodup_singleton _⟩
  albumz := ⟨[⟨"hits", none⟩], List.nodup_singleton _⟩
  artistz := ⟨[⟨"guest", none⟩, ⟨"host", none⟩], by decide⟩
  videoSeasonz := ∅
  videoSeriez := ∅
  albumSongz := []
  artistSongz := []
  artistAlbumz := [⟨"host", "hits"⟩]
  scannedDirectories := ∅
  directoryTagRules := ∅
  jobz := ∅

/-- The artist of the album stays, with nothing left. -/
theorem host_outlives_album :
    ¬ compilation.KeepsToItsMedia "disk" (fun _ => false) (fun _ => 1) true := by
  intro keeps
  have accepted : compilation.Accepted "disk" fun _ => false :=
    ⟨⟨_, List.mem_cons_self, rfl, rfl⟩, rfl, fun _ _ => rfl⟩
  obtain ⟨⟨copy, done⟩, -⟩ := (@accepted_iff _ _ _ (fun _ => 1) true).mp accepted
  unfold KeepsToItsMedia removeSource at keeps
  rw [done] at keeps
  have left : ¬ compilation.ArtistLeft "disk" "host" := by
    rw [@artistLeft_iff _ _ fun _ => 1]
    decide
  have goes : compilation.ArtistGoes "disk" ⟨"host", none⟩ :=
    ⟨rfl, artistHad_iff.mpr (.inr ⟨_, List.mem_cons_self, rfl, _, List.mem_cons_self, rfl,
      List.mem_cons_self⟩), left⟩
  have picked := ((removesOnly_iff done).mp keeps ⟨"host", none⟩
    (List.mem_cons_of_mem _ List.mem_cons_self)).mpr goes
  exact absurd picked.2.1 (by decide)

end Library

end Tomb.Grimoire.ExternalStorage
