import Beryl.ApplyNamespace
import Beryl.ApplyReclaim
import Beryl.ApplyWrite
import Beryl.Command
import Beryl.Effect
import Beryl.Inode
import Beryl.Invariants
import Beryl.OrderedTable
import Beryl.StateMachine
import Beryl.Storage
import Beryl.StorageQueries
import Beryl.StorageSpec
import Beryl.StorageTransactions
import Beryl.Transaction
import Beryl.Types
import Beryl.WriteSpec
import Beryl.NamespaceSpec
import Beryl.PathSpec
import Beryl.RenameSpec
import Beryl.ReclaimSpec
import Beryl.CommandSpec
import Beryl.History
import Beryl.Replica
import Beryl.Evolution
import Beryl.FileHistory
import Beryl.Allocation
import Beryl.CommitReplay
import Beryl.Namespace
import Beryl.Integrity
import Beryl.PathResolver
import Beryl.Service
import Beryl.LeaderCommands
import Beryl.Soundness
import Beryl.Acyclicity
import Beryl.StaleParents
import Beryl.Progress
import Beryl.ReplayHistory
import Beryl.ByteString
import Beryl.Keys
import Beryl.CreateOnce
import Beryl.Reclamation
import Beryl.ByteReader
import Beryl.SnapshotCodec
import Beryl.SnapshotFrame
import Beryl.Decimal
import Beryl.RaftStore
import Beryl.SnapshotWriting
import Beryl.LogRefinement
import Beryl.FiniteMap
import Beryl.Location
import Beryl.SessionRegistry
import Beryl.SessionCalls
import Beryl.SessionIndex
import Beryl.SessionSound
import Beryl.SessionEffects
import Beryl.PublicationRefinement
import Beryl.SessionSteps
import Beryl.SessionRun
import Beryl.SessionActivity
import Beryl.SessionOwners
import Beryl.CommittedBlocks
import Beryl.TargetChain
import Beryl.TargetHistory
import Beryl.PayloadAgreement
import Beryl.ReverseIndex
import Beryl.WorkerReports
import Beryl.Paging
import Beryl.WorkerIndex
import Beryl.ReplicaScan
import Beryl.BlockAccess
import Beryl.ClientLayout
import Beryl.ClientWriter
import Beryl.Cleanup
import Beryl.CleanupCycles
import Beryl.Observer
import Beryl.ReadPath
import Beryl.ReadFreshness
import Beryl.SyncWrite
import Beryl.SyncedContent
import Beryl.MountTable
import Beryl.ChangeTracker
import Beryl.SessionAdmission
import Beryl.SessionSweep
import Beryl.Listing
import Beryl.MountResolution
