import Landropic.Cas.AtomicDirectory
import Landropic.Cas.AtomicWriter
import Landropic.Cas.BatchRuns
import Landropic.Cas.CacheAccounting
import Landropic.Cas.Compression
import Landropic.Cas.PackFooters
import Landropic.Cas.PackNames
import Landropic.Cas.PackReaders
import Landropic.Cas.PackRuns
import Landropic.Cas.ReadIntegrity
import Landropic.Cas.StorageLeaks
import Landropic.Cas.WritePaths
import Landropic.Crypto.Identity
import Landropic.Crypto.Pairing
import Landropic.Crypto.TrustStore
import Landropic.Daemon.DiffProgress
import Landropic.Daemon.EventRuns
import Landropic.Daemon.FileClient
import Landropic.Daemon.ReceivedSummaries
import Landropic.Daemon.ResumeArithmetic
import Landropic.Daemon.Streaming
import Landropic.Daemon.SyncFolders
import Landropic.Index.ChunkCounts
import Landropic.Index.ContentHashes
import Landropic.Index.GlobPatterns
import Landropic.Index.LinkedWalk
import Landropic.Index.Migrations
import Landropic.Index.Relocation
import Landropic.Index.ScanFaults
import Landropic.Index.Snapshots
import Landropic.Proto.FolderProgress
import Landropic.Proto.HandlerRaces
import Landropic.Proto.Paths
import Landropic.Quic.AcceptLoop
import Landropic.Quic.BatchTransfers
import Landropic.Quic.Cancelling
import Landropic.Quic.CheckpointRaces
import Landropic.Quic.ChunkTransfer
import Landropic.Quic.CircuitRuns
import Landropic.Quic.FlowControl
import Landropic.Quic.PairingManager
import Landropic.Quic.PoolLimits
import Landropic.Quic.Reconnection
import Landropic.Quic.ZeroCopy
import Landropic.Sync.ChunkBookkeeping
import Landropic.Sync.Exchange
import Landropic.Sync.Faults
import Landropic.Sync.MerkleProofs
import Landropic.Sync.OpenConflicts
import Landropic.Sync.OrchestratorRaces
import Landropic.Sync.PeerHistory
import Landropic.Sync.PendingChanges
import Landropic.Sync.Receipts
import Landropic.Sync.RecoveryViews
import Landropic.Sync.SessionCrashes
import Landropic.Sync.SessionRaces
import Landropic.Sync.StateOrder
import Landropic.Sync.TransferLimits
import Landropic.Sync.TransferQueue
import Landropic.Sync.TransferRecords
import Landropic.Sync.Versions
import Landropic.Sync.WantedChunks
