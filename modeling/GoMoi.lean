import GoMoi.Common.BitAlgebra
import GoMoi.Common.IdentifierText
import GoMoi.Common.LeaderAgreement
import GoMoi.Compute.Actors
import GoMoi.Compute.AssetClock
import GoMoi.Compute.AssetFrame
import GoMoi.Compute.Fee
import GoMoi.Compute.FuelBounds
import GoMoi.Compute.Spending
import GoMoi.Compute.Supply
import GoMoi.Consensus.Acceptance
import GoMoi.Consensus.Certificate
import GoMoi.Consensus.DistinctVoters
import GoMoi.Consensus.JobQueue
import GoMoi.Consensus.PrepareReplies
import GoMoi.Consensus.RandomQuorum
import GoMoi.Consensus.SlotRuns
import GoMoi.Consensus.Stochastic
import GoMoi.Consensus.Turns
import GoMoi.Consensus.ViewFold
import GoMoi.Ixpool.Operations
import GoMoi.Ixpool.Queries
import GoMoi.Jsonrpc.Logs
import GoMoi.Lattice.Positions
import GoMoi.Senatus.Repengine
import GoMoi.State.ContextEdits
import GoMoi.State.CopyOnWrite
import GoMoi.State.LogicStorage
import GoMoi.State.MetadataCommit
import GoMoi.State.TreeCopy
import GoMoi.State.TreeFlush
import GoMoi.Syncer.BucketSync
import GoMoi.Syncer.Collector
import GoMoi.Syncer.DirtyEntries
import GoMoi.Syncer.FetchIxns
import GoMoi.Syncer.LatticeSync
import GoMoi.Syncer.MergedParticipants
import GoMoi.Syncer.RequestQueue
