import Tomb.Haruspex.Protocol.Presence
import Tomb.Haruspex.Protocol.Codec
import Tomb.Haruspex.Protocol.Interop
import Tomb.Midden.Gc
import Tomb.Midden.TagDurability
import Tomb.Haruspex.KnockLog
import Tomb.Haruspex.Ownership
import Tomb.Haruspex.Acl.Policy
import Tomb.Haruspex.Webauthn.SingleUse
import Tomb.Reliquary.Gate
import Tomb.Reliquary.UploadIntegrity
import Tomb.Rathole.PushDedup
import Tomb.Spume.MirrorRemoval
import Tomb.Grimoire.RootProtection
import Tomb.Grimoire.Revocation
import Tomb.Grimoire.MediaBlobz.SelfHeal
import Tomb.Grimoire.Radio.RequestExpiry
import Tomb.Grimoire.Radio.QueueReplica
import Tomb.Grimoire.Radio.StreamIntegrity
import Tomb.Grimoire.Radio.DefaultStation
import Tomb.Grimoire.Radio.ListenerWait
import Tomb.Grimoire.Radio.WithinFilters
import Tomb.Grimoire.Radio.Chunking
import Tomb.Grimoire.Music.Acyclic
import Tomb.Grimoire.Jobs.WorkerPool
import Tomb.Grimoire.Jobs.Scheduling
import Tomb.Reliquary.Automerge.AclFiltering
import Tomb.Reliquary.Automerge.PeerMaintenance
import Tomb.Reliquary.Automerge.PeerEvents
import Tomb.Reliquary.Transfer.BlobServer
import Tomb.Reliquary.Transfer.Snatch
import Tomb.Spume.Transfers.TransferQueue
import Tomb.Spume.Transfers.BlobTransferRegistry
import Tomb.Spume.Queue.HistoryUpdates
import Tomb.Spume.Queue.SessionTracking
import Tomb.Rathole.Advances
import Tomb.Rathole.Loading
import Tomb.Spume.Cenotaph.SessionUpdates
import Tomb.Spume.Cenotaph.Pairing
import Tomb.Spume.Cenotaph.CommandAuthority
import Tomb.Grimoire.ExternalStorage.Observations
import Tomb.Grimoire.ExternalStorage.Relocation
import Tomb.Grimoire.Maintenance.Orphaned
import Tomb.Reliquary.Browser.Returns
import Tomb.Grimoire.Maintenance.RerunLaw
import Tomb.Grimoire.Cenotaph.PairingRuns
import Tomb.Haruspex.Protocol.BadFrames
import Tomb.Grimoire.KnockAcceptance
import Tomb.Grimoire.Music.Analytics.SessionInvariant
import Tomb.Grimoire.Music.Crud.ImportRuns
import Tomb.Grimoire.Music.Scanner.MoveLaw
import Tomb.Grimoire.Music.TaxonNames
import Tomb.Grimoire.Radio.TransportLaw
import Tomb.Grimoire.Radio.PlannerLaw
import Tomb.Grimoire.Radio.ResumeLaw
import Tomb.Grimoire.Radio.FragmentDuration
import Tomb.Haruspex.IdbKnocks
import Tomb.Haruspex.HubAdmin
import Tomb.Spume.Queue.EnqueueLaw
import Tomb.Midden.ExportLaw
import Tomb.Reliquary.SnatchPresence
import Tomb.Grimoire.Radio.GroupIndex
import Tomb.Grimoire.Jobs.Backoff
import Tomb.Grimoire.Playlists.SongMoves
import Tomb.Grimoire.Playlists.Etag
import Tomb.Grimoire.ExternalStorage.RemovalLaw
import Tomb.Grimoire.Jobs.DirectoryTagRules
import Tomb.Grimoire.ExternalStorage.PathNaming
import Tomb.Grimoire.Maintenance.HardDeleteLaw
import Tomb.Reliquary.Automerge.AcceptLoop
import Tomb.Spume.Transfers.ItemPause
import Tomb.Reliquary.Browser.BlobListing
import Tomb.Reliquary.Transfer.Prefetch
import Tomb.Reliquary.Ensure.Responder
import Tomb.Grimoire.Cenotaph.ConnectedControllers
import Tomb.Grimoire.Music.Scanner.MoveOrder
import Tomb.Spume.Queue.Departures
import Tomb.Spume.RemoteTarget
import Tomb.Grimoire.Music.Scanner.FilenameParser
