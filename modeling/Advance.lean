import Advance.Storage.ProjectionCollections
import Advance.Storage.ProjectionStateFence
import Advance.Storage.ProjectionVerification
import Advance.Storage.SummaryRefinement
import Advance.Storage.LostUpdates
import Advance.Utils.FileLockExclusion
import Advance.Storage.SummaryCollection
import Advance.Storage.SummaryFreshness
import Advance.Storage.EpicRecovery
import Advance.Storage.EpicRetirement
import Advance.Storage.SpecDeltas
import Advance.Utils.GitWorktreeFlockExclusion
import Advance.Gates.ContractAgreement
import Advance.Gates.DesignDispositions
import Advance.Tools.GateCompletion
import Advance.Tools.Worktree.DeletionSafety
import Advance.Utils.WorktreeLeaseExclusion
import Advance.Utils.BacklogRefinement
import Advance.Storage.CloseRace
import Advance.Storage.ReconcileProof
import Advance.Storage.ResiduePagination
import Advance.Tools.ArchiveHelpers.ConflictNavigation
import Advance.Tools.DelegationBudget
import Advance.Tools.PlanningFreeze
import Advance.Tools.Change.TerminalLifecycle
import Advance.Tools.ArchiveHelpers.ReleaseReachability
import Advance.Tools.Change.ArchiveFlow
import Advance.Utils.BranchIntegration
import Advance.Validator.AcyclicEdges
import Advance.Validator.MergeOrder
import Advance.Storage.ReadyTasks
import Advance.Utils.LedgerCompleteness
import Advance.Storage.ChangeLookup
import Advance.Storage.NextEntry
import Advance.Storage.ShardPaths
import Advance.Storage.ReconcileApply
import Advance.Archive.ProjectionFrame
import Advance.Archive.HistoricalAuthority
import Advance.Archive.ApplierAgreement
import Advance.Projection.ResumeOrder
import Advance.Tools.Change.CreateRace
import Advance.Archive.RepairRerun
import Advance.Validator.MintFaithfulness
import Advance.Tools.FirewallCoverage
import Advance.Tools.LightweightProfile
import Advance.Tools.Worktree.PorcelainParser
import Advance.Tools.Worktree.DeletionToken
import Advance.Storage.GeneratedIds
import Advance.Storage.ProjectWisdom
import Advance.Tools.ReportKeys
import Advance.Utils.PreflightExactness
import Advance.Storage.SelectionSafety
import Advance.Storage.DiskSweep
import Advance.Utils.BoundedRetry
import Advance.Tools.SnapshotScan
import Advance.Tools.BatchOperations
import Advance.Utils.CommandPayload
import Advance.Storage.EpicInterleavings
