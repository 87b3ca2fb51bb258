import Tomb.Grimoire.ExternalStorage.Membership
import Tomb.Grimoire.ExternalStorage.SyncPriority
import Tomb.Grimoire.Jobs.Models

/-! Removing a library source: its media are marked as deleted, then what they leave empty, then
the directories that were tracked for it, all in one transaction. -/
namespace Tomb.Grimoire.ExternalStorage
open Tomb.Lib

structure Media where
  (id mediaBlobId : String)
  deletedAt : Option Int

structure Video extends Media where
  (artistId albumId seriesId seasonId : Option String)

structure Container where
  id : String
  deletedAt : Option Int

structure AlbumSong where
  (albumId songId : String)

structure ArtistSong where
  (artistId songId : String)

structure ArtistAlbum where
  (artistId albumId : String)

structure ScannedDirectory where
  path : String

structure DirectoryTagRule where
  (directoryPath tagId : String)

structure Library where
  sources : Database
  songz : Table Media.id
  videoz : Table fun video : Video => video.id
  (albumz artistz videoSeasonz videoSeriez : Table Container.id)
  albumSongz : List AlbumSong
  artistSongz : List ArtistSong
  artistAlbumz : List ArtistAlbum
  scannedDirectories : Table ScannedDirectory.path
  directoryTagRules : Table fun rule : DirectoryTagRule => (rule.directoryPath, rule.tagId)
  jobz : Table Jobs.Job.id

inductive Query where
  | getSource
  | listTargets
  | begin
  | lockSource
  | activeJobs
  | markSongs
  | markVideos
  | markAlbums
  | markArtists
  | markSeasons
  | markSeries
  | sourceRoots
  | otherRoots
  | directories
  | deleteDirectory (path : String)
  | deleteRules (path : String)
  | deleteSource
  | commit

inductive RemovalError where
  | database
  | validation (field message : String)

def asked (fails : Query → Bool) (query : Query) : Except RemovalError Unit :=
  if fails query then .error .database else .ok ()

def refusedUnless (holds : Bool) (message : String) : Except RemovalError Unit :=
  if holds then .ok () else .error (.validation "id" message)

def Media.markDeleted (now : Int) (media : Media) : Media := { media with deletedAt := some now }

def Video.markDeleted (now : Int) (video : Video) : Video := { video with deletedAt := some now }

def Container.markDeleted (now : Int) (row : Container) : Container :=
  { row with deletedAt := some now }

namespace Library

variable (lib : Library) (id : String)

def busy : Bool :=
  lib.jobz.rows.any fun job => job.status.live &&
    ["ScanDirectory", "ProcessDirectory", "ProcessFile", "TranscodeVideo", "RescanDirectories",
      "ReorganizeLibraryFiles"].contains job.jobType

def onSource (blobId : String) : Bool :=
  lib.sources.librarySourceMediaz.rows.any fun media => media.blobId = blobId && media.sourceId = id

def onlyOnSource (blobId : String) : Bool :=
  lib.sources.librarySourceMediaz.rows.any fun media =>
    media.sourceId = id && media.blobId = blobId &&
    !lib.sources.librarySourceMediaz.rows.any fun other =>
      other.blobId = media.blobId && other.sourceId ≠ id

def markSongs (now : Int) : Library :=
  { lib with
    songz := lib.songz.update
      (fun song => song.deletedAt.isNone && lib.onlyOnSource id song.mediaBlobId)
      (Media.markDeleted now) fun _ => rfl }

def markVideos (now : Int) : Library :=
  { lib with
    videoz := lib.videoz.update
      (fun video => video.deletedAt.isNone && lib.onlyOnSource id video.mediaBlobId)
      (Video.markDeleted now) fun _ => rfl }

def songOnSource (songId : String) : Bool :=
  lib.songz.rows.any fun song => song.id = songId && lib.onSource id song.mediaBlobId

def albumSongOnSource (albumId : String) : Bool :=
  lib.albumSongz.any fun link => link.albumId = albumId && lib.songOnSource id link.songId

def artistSongOnSource (artistId : String) : Bool :=
  lib.artistSongz.any fun link => link.artistId = artistId && lib.songOnSource id link.songId

def artistAlbumSongOnSource (artistId : String) : Bool :=
  lib.artistAlbumz.any fun link => link.artistId = artistId && lib.albumSongOnSource id link.albumId

def videoOnSource (column : Video → Option String) (key : String) : Bool :=
  lib.videoz.rows.any fun video => column video = some key && lib.onSource id video.mediaBlobId

def liveSong (songId : String) : Bool :=
  lib.songz.rows.any fun song => song.id = songId && song.deletedAt.isNone

def albumLiveSong (albumId : String) : Bool :=
  lib.albumSongz.any fun link => link.albumId = albumId && lib.liveSong link.songId

def artistLiveSong (artistId : String) : Bool :=
  lib.artistSongz.any fun link => link.artistId = artistId && lib.liveSong link.songId

def artistLiveAlbum (artistId : String) : Bool :=
  lib.artistAlbumz.any fun link => link.artistId = artistId &&
    lib.albumz.rows.any fun album => album.id = link.albumId && album.deletedAt.isNone

def liveVideo (column : Video → Option String) (key : String) : Bool :=
  lib.videoz.rows.any fun video => column video = some key && video.deletedAt.isNone

def markAlbums (now : Int) : Library :=
  { lib with
    albumz := lib.albumz.update
      (fun album => album.deletedAt.isNone &&
        (lib.albumSongOnSource id album.id || lib.videoOnSource id (·.albumId) album.id) &&
        !lib.albumLiveSong album.id && !lib.liveVideo (·.albumId) album.id)
      (Container.markDeleted now) fun _ => rfl }

def artistOnSource (artistId : String) : Bool :=
  lib.artistSongOnSource id artistId || lib.videoOnSource id (·.artistId) artistId ||
    lib.artistAlbumSongOnSource id artistId

def markArtists (now : Int) : Library :=
  { lib with
    artistz := lib.artistz.update
      (fun artist => artist.deletedAt.isNone && lib.artistOnSource id artist.id &&
        !lib.artistLiveSong artist.id && !lib.artistLiveAlbum artist.id &&
        !lib.liveVideo (·.artistId) artist.id)
      (Container.markDeleted now) fun _ => rfl }

def markGroups (column : Video → Option String) (now : Int) (groups : Table Container.id) :
    Table Container.id :=
  groups.update
    (fun group => group.deletedAt.isNone && lib.videoOnSource id column group.id &&
      !lib.liveVideo column group.id)
    (Container.markDeleted now) fun _ => rfl

def markSeasons (now : Int) : Library :=
  { lib with videoSeasonz := lib.markGroups id (·.seasonId) now lib.videoSeasonz }

def markSeries (now : Int) : Library :=
  { lib with videoSeriez := lib.markGroups id (·.seriesId) now lib.videoSeriez }

def sourceRoots : List Path :=
  (lib.sources.librarySourcePathz.rows.filter (·.sourceId = id)).map (·.path)

def otherRoots : List Path :=
  (lib.sources.librarySourcePathz.rows.filter (·.sourceId ≠ id)).map (·.path)

end Library

def startsWith (path root : List Char) : Bool := (components root).isPrefixOf (components path)

def isTrackedFor (roots otherRoots : List Path) (path : String) : Bool :=
  (roots.any fun root => startsWith path.toList root.chars) &&
    !otherRoots.any fun root =>
      startsWith path.toList root.chars || startsWith root.chars path.toList

namespace Library

def removeDirectory (fails : Query → Bool) (roots otherRoots : List Path) (lib : Library)
    (directory : ScannedDirectory) : Except RemovalError Library :=
  if isTrackedFor roots otherRoots directory.path then do
    asked fails (.deleteDirectory directory.path)
    let lib := { lib with
      scannedDirectories := lib.scannedDirectories.deleteWhere (·.path = directory.path) }
    asked fails (.deleteRules directory.path)
    return { lib with
      directoryTagRules := lib.directoryTagRules.deleteWhere (·.directoryPath = directory.path) }
  else return lib

def removeRow (mediaFirst : Bool) (id : String) (lib : Library) : Except RemovalError Library :=
  match lib.sources.deleteSource id mediaFirst with
  | some sources => .ok { lib with sources }
  | none => .error .database

def findSource (id : String) (lib : Library) : Except RemovalError LibrarySource :=
  match lib.sources.librarySourcez.get id with
  | some source => .ok source
  | none => .error (.validation "id" "library source not found")

def removal (fails : Query → Bool) (clock : Query → Int) (mediaFirst : Bool) (id : String)
    (lib : Library) : Except RemovalError Library := do
  asked fails .getSource
  let source ← lib.findSource id
  asked fails .listTargets
  refusedUnless (!isSyncSource lib.sources.listTargets source)
    "source is reserved for removable storage sync"
  asked fails .begin
  asked fails .lockSource
  asked fails .activeJobs
  refusedUnless (!lib.busy)
    "wait for library scans, imports and transcodes to finish before removing a disk"
  asked fails .markSongs
  let lib := lib.markSongs id (clock .markSongs)
  asked fails .markVideos
  let lib := lib.markVideos id (clock .markVideos)
  asked fails .markAlbums
  let lib := lib.markAlbums id (clock .markAlbums)
  asked fails .markArtists
  let lib := lib.markArtists id (clock .markArtists)
  asked fails .markSeasons
  let lib := lib.markSeasons id (clock .markSeasons)
  asked fails .markSeries
  let lib := lib.markSeries id (clock .markSeries)
  asked fails .sourceRoots
  let roots := lib.sourceRoots id
  asked fails .otherRoots
  let otherRoots := lib.otherRoots id
  asked fails .directories
  let lib ← lib.scannedDirectories.rows.foldlM (removeDirectory fails roots otherRoots) lib
  asked fails .deleteSource
  lib.removeRow mediaFirst id

/-- The tables behind the call, and what it returns. A transaction that is not committed is rolled
back. -/
def removeSource (fails : Query → Bool) (clock : Query → Int) (mediaFirst : Bool) (id : String)
    (lib : Library) : Library × Except RemovalError Unit :=
  match lib.removal fails clock mediaFirst id with
  | .error error => (lib, .error error)
  | .ok copy =>
    match asked fails .commit with
    | .error error => (lib, .error error)
    | .ok () => (copy, .ok ())

/-! ## What is left of each table -/

theorem asked_bind_iff {α : Type} {fails : Query → Bool} {query : Query}
    {next : Unit → Except RemovalError α} {result : α} :
    (asked fails query >>= next) = .ok result ↔ fails query = false ∧ next () = .ok result := by
  unfold asked
  cases fails query with
  | true => exact ⟨nofun, nofun⟩
  | false => exact (and_iff_right rfl).symm

theorem asked_eq_ok_iff {fails : Query → Bool} {query : Query} {result : Unit} :
    asked fails query = .ok result ↔ fails query = false := by
  unfold asked
  cases fails query with
  | true => exact ⟨nofun, nofun⟩
  | false => exact ⟨fun _ => rfl, fun _ => rfl⟩

theorem refusedUnless_bind_iff {α : Type} {holds : Bool} {message : String}
    {next : Unit → Except RemovalError α} {result : α} :
    (refusedUnless holds message >>= next) = .ok result ↔ holds = true ∧ next () = .ok result := by
  unfold refusedUnless
  cases holds with
  | true => exact (and_iff_right rfl).symm
  | false => exact ⟨nofun, nofun⟩

theorem findSource_bind_iff {α : Type} {id : String} {lib : Library}
    {next : LibrarySource → Except RemovalError α} {result : α} :
    (lib.findSource id >>= next) = .ok result ↔
      ∃ source ∈ lib.sources.librarySourcez, source.id = id ∧ next source = .ok result := by
  unfold findSource
  cases found : lib.sources.librarySourcez.get id with
  | none =>
    refine ⟨nofun, ?_⟩
    rintro ⟨source, stored, named, -⟩
    exact absurd named ((Table.get_eq_none _ _).mp found source stored)
  | some source =>
    obtain ⟨stored, named⟩ := (Table.get_eq_some _ _ _).mp found
    refine ⟨fun done => ⟨source, stored, named, done⟩, ?_⟩
    rintro ⟨other, stored', named', done⟩
    cases Table.eq_of_key_eq _ stored stored' (named.trans named'.symm)
    exact done

def dropDirectory (lib : Library) (path : String) : Library :=
  { lib with
    scannedDirectories := lib.scannedDirectories.deleteWhere (·.path = path)
    directoryTagRules := lib.directoryTagRules.deleteWhere (·.directoryPath = path) }

section Directories

variable {fails : Query → Bool} {roots otherRoots : List Path}

theorem removeDirectory_eq_ok_iff {lib after : Library} {directory : ScannedDirectory} :
    removeDirectory fails roots otherRoots lib directory = .ok after ↔
      (isTrackedFor roots otherRoots directory.path = true →
        fails (.deleteDirectory directory.path) = false ∧
          fails (.deleteRules directory.path) = false) ∧
      after = if isTrackedFor roots otherRoots directory.path then lib.dropDirectory directory.path
        else lib := by
  unfold removeDirectory
  split
  · rename_i tracked
    rw [asked_bind_iff, asked_bind_iff, ← and_assoc]
    refine and_congr ?_ ⟨fun done => (Except.ok.inj done).symm, fun same => same ▸ rfl⟩
    exact ⟨fun answered _ => answered, fun answered => answered tracked⟩
  · rename_i outside
    refine ⟨fun done => ⟨fun tracked => absurd tracked outside, (Except.ok.inj done).symm⟩, ?_⟩
    rintro ⟨-, rfl⟩
    rfl

theorem removeDirectories_eq_ok_iff {directories : List ScannedDirectory} {lib after : Library} :
    directories.foldlM (removeDirectory fails roots otherRoots) lib = .ok after ↔
      (∀ directory ∈ directories, isTrackedFor roots otherRoots directory.path = true →
        fails (.deleteDirectory directory.path) = false ∧
          fails (.deleteRules directory.path) = false) ∧
      after = (directories.filter (isTrackedFor roots otherRoots ·.path)).foldl
        (fun lib directory => lib.dropDirectory directory.path) lib := by
  induction directories generalizing lib with
  | nil =>
    exact ⟨fun done => ⟨nofun, (Except.ok.inj done).symm⟩, fun both => congrArg _ both.2.symm⟩
  | cons first rest ih =>
    rw [List.foldlM_cons, List.forall_mem_cons, List.filter_cons]
    constructor
    · intro done
      cases one : removeDirectory fails roots otherRoots lib first with
      | error error =>
        rw [one] at done
        cases done
      | ok between =>
        rw [one] at done
        obtain ⟨answered, rfl⟩ := removeDirectory_eq_ok_iff.mp one
        obtain ⟨later, rfl⟩ := ih.mp done
        refine ⟨⟨answered, later⟩, ?_⟩
        split <;> rfl
    · rintro ⟨⟨answered, later⟩, rfl⟩
      rw [removeDirectory_eq_ok_iff.mpr ⟨answered, rfl⟩]
      refine ih.mpr ⟨later, ?_⟩
      split <;> rfl

theorem dropDirectories_spec (directories : List ScannedDirectory) (lib : Library) :
    ∃ scanned rules, directories.foldl (fun lib directory => lib.dropDirectory directory.path) lib =
        { lib with scannedDirectories := scanned, directoryTagRules := rules } ∧
      (∀ row, row ∈ scanned ↔
        row ∈ lib.scannedDirectories ∧ ∀ directory ∈ directories, row.path ≠ directory.path) ∧
      ∀ rule, rule ∈ rules ↔ rule ∈ lib.directoryTagRules ∧
        ∀ directory ∈ directories, rule.directoryPath ≠ directory.path := by
  induction directories generalizing lib with
  | nil => exact ⟨_, _, rfl, fun row => by simp, fun rule => by simp⟩
  | cons first rest ih =>
    obtain ⟨scanned, rules, dropped, members, members'⟩ := ih (lib.dropDirectory first.path)
    refine ⟨scanned, rules, dropped, fun row => ?_, fun rule => ?_⟩
    · rw [members row, dropDirectory, Table.mem_deleteWhere, decide_eq_false_iff_not, and_assoc,
        List.forall_mem_cons]
    · rw [members' rule, dropDirectory, Table.mem_deleteWhere, decide_eq_false_iff_not, and_assoc,
        List.forall_mem_cons]

end Directories

end Library

namespace Database

variable {db : Database} {id : String}

theorem hasSource_deleteWhere (sources : Table LibrarySource.id)
    (left : db.librarySourcez = sources.deleteWhere (·.id = id)) : db.hasSource id = false := by
  rw [Bool.eq_false_iff]
  intro known
  obtain ⟨source, stored, named⟩ := hasSource_iff.mp known
  rw [left] at stored
  exact of_decide_eq_false ((Table.mem_deleteWhere _ _ _).mp stored).2 named

theorem insertFromView_gone (unknown : db.hasSource id = false) (orIgnore : Bool) :
    db.insertFromView orIgnore (·.sourceId = id) = some db := by
  have none : db.librarySourceBlobPathView.filter (·.sourceId = id) = [] := by
    refine List.filter_eq_nil_iff.mpr fun row listed => ?_
    have known := (mem_view.mp listed).2
    rw [decide_eq_true_eq]
    rintro rfl
    cases known.symm.trans unknown
  rw [insertFromView, none]
  rfl

theorem deletePath_gone {root : SourcePath} (unknown : db.hasSource root.sourceId = false)
    (recorded : root ∈ db.librarySourcePathz) :
    db.deletePath root = some { db with
      librarySourcePathz := db.librarySourcePathz.deleteWhere (· = root)
      librarySourceMediaz := db.librarySourceMediaz.deleteWhere (·.sourceId = root.sourceId) } := by
  unfold deletePath
  rw [if_pos ((Table.mem_def _ _).mp recorded)]
  exact @insertFromView_gone { db with
    librarySourcePathz := db.librarySourcePathz.deleteWhere (· = root)
    librarySourceMediaz := db.librarySourceMediaz.deleteWhere (·.sourceId = root.sourceId) }
    root.sourceId unknown false

theorem deletePaths_gone {roots : List SourcePath} (distinct : roots.Nodup)
    (unknown : db.hasSource id = false)
    (recorded : ∀ root ∈ roots, root ∈ db.librarySourcePathz ∧ root.sourceId = id) :
    ∃ paths medias, roots.foldlM (fun db root => db.deletePath root) db =
        some { db with librarySourcePathz := paths, librarySourceMediaz := medias } ∧
      (∀ root, root ∈ paths ↔ root ∈ db.librarySourcePathz ∧ root ∉ roots) ∧
      (∀ media ∈ medias, media ∈ db.librarySourceMediaz) ∧
      ∀ media ∈ db.librarySourceMediaz, media.sourceId ≠ id → media ∈ medias := by
  induction roots generalizing db with
  | nil => exact ⟨_, _, rfl, fun root => by simp, fun _ stored => stored, fun _ stored _ => stored⟩
  | cons first rest ih =>
    obtain ⟨absent, distinct⟩ := List.nodup_cons.mp distinct
    obtain ⟨present, rfl⟩ := recorded first List.mem_cons_self
    have left (root : SourcePath) :
        root ∈ db.librarySourcePathz.deleteWhere (· = first) ↔
          root ∈ db.librarySourcePathz ∧ root ≠ first := by
      rw [Table.mem_deleteWhere, decide_eq_false_iff_not]
    have later := @ih { db with
        librarySourcePathz := db.librarySourcePathz.deleteWhere (· = first)
        librarySourceMediaz := db.librarySourceMediaz.deleteWhere (·.sourceId = first.sourceId) }
      distinct unknown (fun root member => by
        obtain ⟨present, named⟩ := recorded root (List.mem_cons_of_mem _ member)
        exact ⟨(left root).mpr ⟨present, fun same => absent (same ▸ member)⟩, named⟩)
    obtain ⟨paths, medias, done, members, within, kept⟩ := later
    refine ⟨paths, medias, ?_, fun root => ?_, fun media stored => ?_, fun media stored other => ?_⟩
    · rw [List.foldlM_cons, deletePath_gone unknown present]
      exact done
    · rw [members root, left root, List.mem_cons, not_or, and_assoc]
    · exact ((Table.mem_deleteWhere _ _ _).mp (within media stored)).1
    · exact kept media ((Table.mem_deleteWhere _ _ _).mpr ⟨stored, decide_eq_false other⟩) other

theorem deleteSource_frame (db : Database) (id : String) (mediaFirst : Bool) :
    ∃ paths medias, db.deleteSource id mediaFirst = some { db with
        librarySourcez := db.librarySourcez.deleteWhere (·.id = id)
        librarySourceStatez := db.librarySourceStatez.deleteWhere (·.sourceId = id)
        librarySourcePathz := paths
        librarySourceMediaz := medias } ∧
      (∀ root, root ∈ paths ↔ root ∈ db.librarySourcePathz ∧ root.sourceId ≠ id) ∧
      ∀ media, media ∈ medias ↔ media ∈ db.librarySourceMediaz ∧ media.sourceId ≠ id := by
  have rootsDistinct : db.librarySourcePathz.rows.Nodup := by
    have unique := db.librarySourcePathz.unique
    rwa [List.map_id'] at unique
  have recorded (root : SourcePath)
      (member : root ∈ db.librarySourcePathz.rows.filter (·.sourceId = id)) :
      root ∈ db.librarySourcePathz ∧ root.sourceId = id :=
    ⟨(List.mem_filter.mp member).1, by simpa using (List.mem_filter.mp member).2⟩
  have others (root : SourcePath) : root ∈ db.librarySourcePathz ∧
        root ∉ db.librarySourcePathz.rows.filter (·.sourceId = id) ↔
      root ∈ db.librarySourcePathz ∧ root.sourceId ≠ id := by
    rw [List.mem_filter, decide_eq_true_eq, not_and]
    exact and_congr_right fun stored => ⟨fun other => other stored, fun other _ => other⟩
  cases mediaFirst with
  | true =>
    obtain ⟨paths, medias, done, members, within, kept⟩ := @deletePaths_gone { db with
        librarySourcez := db.librarySourcez.deleteWhere (·.id = id)
        librarySourceStatez := db.librarySourceStatez.deleteWhere (·.sourceId = id)
        librarySourceMediaz := db.librarySourceMediaz.deleteWhere (·.sourceId = id) } id _
      (rootsDistinct.filter (·.sourceId = id)) (hasSource_deleteWhere _ rfl) recorded
    refine ⟨paths, medias, done, fun root => (members root).trans (others root), fun media => ?_⟩
    have cleared := Table.mem_deleteWhere db.librarySourceMediaz (·.sourceId = id) media
    rw [decide_eq_false_iff_not] at cleared
    exact ⟨fun stored => cleared.mp (within media stored),
      fun stored => kept media (cleared.mpr stored) stored.2⟩
  | false =>
    obtain ⟨paths, medias, done, members, within, kept⟩ := @deletePaths_gone { db with
        librarySourcez := db.librarySourcez.deleteWhere (·.id = id)
        librarySourceStatez := db.librarySourceStatez.deleteWhere (·.sourceId = id) } id _
      (rootsDistinct.filter (·.sourceId = id)) (hasSource_deleteWhere _ rfl) recorded
    refine ⟨paths, medias.deleteWhere (·.sourceId = id), ?_,
      fun root => (members root).trans (others root), fun media => ?_⟩
    · exact Option.bind_eq_some_iff.mpr ⟨_, done, rfl⟩
    · rw [Table.mem_deleteWhere, decide_eq_false_iff_not]
      exact ⟨fun stored => ⟨within media stored.1, stored.2⟩,
        fun stored => ⟨kept media stored.1 stored.2, stored.2⟩⟩

end Database

end Tomb.Grimoire.ExternalStorage
