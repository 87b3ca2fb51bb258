import Tomb.Lib.Table

/-! Jobs and their sessions: the rows and the tables. A row's `attempt` is no column: it counts how
often the row was made pending. -/
namespace Tomb.Grimoire.Jobs
open Tomb.Lib

inductive JobType where
  | scanDirectory
  | rescanDirectories
  | processFile
  | processDirectory
  | fetchMedia
  | preCheckFetch
  | convertWebp
  | importMusic
  | importVideo
  | transcodeVideo
  | mbAlbumSearch
  | mbAlbumDetail
  | lastFmAlbumDetail
  | lastFmArtistDetail
  | audioDbAlbumDetail
  | audioDbArtistDetail
  | albumEnrichmentPipeline
  | autoApplyAlbumEnrichment
  | syncSongByBlake3
  | syncVideoByBlake3
  | repairLibraryImages
  | reorganizeLibraryFiles
  | auditBlobReferences
  | regenerateVideoPosters
  deriving DecidableEq

namespace JobType

def all : List JobType :=
  [scanDirectory, rescanDirectories, processFile, processDirectory, fetchMedia, preCheckFetch,
    convertWebp, importMusic, importVideo, transcodeVideo, mbAlbumSearch, mbAlbumDetail,
    lastFmAlbumDetail, lastFmArtistDetail, audioDbAlbumDetail, audioDbArtistDetail,
    albumEnrichmentPipeline, autoApplyAlbumEnrichment, syncSongByBlake3, syncVideoByBlake3,
    repairLibraryImages, reorganizeLibraryFiles, auditBlobReferences, regenerateVideoPosters]

def name : JobType → String
  | scanDirectory => "ScanDirectory"
  | rescanDirectories => "RescanDirectories"
  | processFile => "ProcessFile"
  | processDirectory => "ProcessDirectory"
  | fetchMedia => "FetchMedia"
  | preCheckFetch => "PreCheckFetch"
  | convertWebp => "ConvertWebp"
  | importMusic => "ImportMusic"
  | importVideo => "ImportVideo"
  | transcodeVideo => "TranscodeVideo"
  | mbAlbumSearch => "MbAlbumSearch"
  | mbAlbumDetail => "MbAlbumDetail"
  | lastFmAlbumDetail => "LastFmAlbumDetail"
  | lastFmArtistDetail => "LastFmArtistDetail"
  | audioDbAlbumDetail => "AudioDbAlbumDetail"
  | audioDbArtistDetail => "AudioDbArtistDetail"
  | albumEnrichmentPipeline => "AlbumEnrichmentPipeline"
  | autoApplyAlbumEnrichment => "AutoApplyAlbumEnrichment"
  | syncSongByBlake3 => "SyncSongByBlake3"
  | syncVideoByBlake3 => "SyncVideoByBlake3"
  | repairLibraryImages => "RepairLibraryImages"
  | reorganizeLibraryFiles => "ReorganizeLibraryFiles"
  | auditBlobReferences => "AuditBlobReferences"
  | regenerateVideoPosters => "RegenerateVideoPosters"

def parse (text : String) : Option JobType := all.find? fun type => type.name = text

end JobType

inductive JobStatus where
  | pending
  | running
  | completed
  | failed
  | cancelled
  deriving DecidableEq

def JobStatus.live (status : JobStatus) : Bool := decide (status = .pending ∨ status = .running)

inductive SessionStatus where
  | active
  | paused
  | completed
  | failed
  | cancelled
  deriving DecidableEq

structure Job where
  id : String
  sessionId : Option String
  jobType : String
  status : JobStatus
  parameters : String
  result : Option String
  (retryCount maxRetries : Nat)
  scheduledAt : Int
  (startedAt completedAt : Option Int)
  (errorMessage createdBy : Option String)
  priority : Int
  attempt : Nat
  deriving DecidableEq

def Job.budget (job : Job) : Nat := max job.maxRetries 1

structure JobSession where
  (id jobType : String)
  status : SessionStatus
  batchSize : Int
  createdBy : Option String
  deriving DecidableEq

def JobSession.become (status : SessionStatus) (session : JobSession) : JobSession :=
  { session with status := status }

theorem JobSession.become_id (status : SessionStatus) (session : JobSession) :
    (session.become status).id = session.id := rfl

structure Tables where
  jobz : Table Job.id
  jobSessionz : Table JobSession.id
  references : ∀ job ∈ jobz, ∀ sessionId ∈ job.sessionId,
    ∃ session ∈ jobSessionz, session.id = sessionId

namespace Tables

variable (t : Tables)

def sessionStatus (sessionId : Option String) : Option SessionStatus :=
  (sessionId.bind t.jobSessionz.get).map JobSession.status

def hasLive (sessionId : String) : Bool :=
  t.jobz.rows.any fun job => job.sessionId = some sessionId && job.status.live

def hasFailed (sessionId : String) : Bool :=
  t.jobz.rows.any fun job => job.sessionId = some sessionId && job.status = .failed

def updateJobs (p : Job → Bool) (f : Job → Job)
    (keeps : ∀ job, (f job).id = job.id ∧ (f job).sessionId = job.sessionId) : Tables where
  jobz := t.jobz.update p f fun job => (keeps job).1
  jobSessionz := t.jobSessionz
  references := fun job member sessionId names => by
    obtain ⟨old, present, rfl⟩ := (t.jobz.mem_update p f _ job).mp member
    refine t.references old present sessionId ?_
    split at names
    · rw [← (keeps old).2]
      exact names
    · exact names

def updateSessions (p : JobSession → Bool) (f : JobSession → JobSession)
    (keeps : ∀ session, (f session).id = session.id) : Tables where
  jobz := t.jobz
  jobSessionz := t.jobSessionz.update p f keeps
  references := fun job member sessionId names => by
    obtain ⟨session, present, same⟩ := t.references job member sessionId names
    refine ⟨if p session then f session else session,
      (t.jobSessionz.mem_update p f keeps _).mpr ⟨session, present, rfl⟩, ?_⟩
    split
    · rw [keeps, same]
    · exact same

def insertJob (job : Job) : Option Tables :=
  match inserted : t.jobz.insert job with
  | none => none
  | some jobz =>
    if exists_ : ∀ sessionId ∈ job.sessionId, ∃ session ∈ t.jobSessionz.rows, session.id = sessionId then
      some ⟨jobz, t.jobSessionz, fun other member sessionId names => by
        obtain old | rfl := (t.jobz.insert_eq_some jobz job inserted other).mp member
        · exact t.references other old sessionId names
        · exact exists_ sessionId names⟩
    else none

def insertSession (session : JobSession) : Option Tables :=
  match inserted : t.jobSessionz.insert session with
  | none => none
  | some jobSessionz => some ⟨t.jobz, jobSessionz, fun job member sessionId names => by
      obtain ⟨found, present, same⟩ := t.references job member sessionId names
      exact ⟨found, (t.jobSessionz.insert_eq_some jobSessionz session inserted found).mpr
        (.inl present), same⟩⟩

end Tables

end Tomb.Grimoire.Jobs
