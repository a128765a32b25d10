import TokenPak.Proofs.AttemptOrder
import TokenPak.Proofs.BandCoverage
import TokenPak.Proofs.BasisExclusivity
import TokenPak.Proofs.BudgetShares
import TokenPak.Proofs.CacheMerge
import TokenPak.Proofs.CacheTransparency
import TokenPak.Proofs.ChunkCaps
import TokenPak.Proofs.CompactionFrame
import TokenPak.Proofs.ControlFields
import TokenPak.Proofs.CredentialSelection
import TokenPak.Proofs.DependencyOrder
import TokenPak.Proofs.DigestEncoding
import TokenPak.Proofs.EagerClose
import TokenPak.Proofs.EffectReconciliation
import TokenPak.Proofs.EstimateHeadroom
import TokenPak.Proofs.ExactlyOnce
import TokenPak.Proofs.ExpiredReplay
import TokenPak.Proofs.GateFairness
import TokenPak.Proofs.GrantFrame
import TokenPak.Proofs.HardBudget
import TokenPak.Proofs.HoldHistory
import TokenPak.Proofs.ImageBounds
import TokenPak.Proofs.InstructionExpansion
import TokenPak.Proofs.LeasedClose
import TokenPak.Proofs.LinkTranslation
import TokenPak.Proofs.LockOverlaps
import TokenPak.Proofs.LostSettlement
import TokenPak.Proofs.MonitorWrites
import TokenPak.Proofs.NearDuplicates
import TokenPak.Proofs.NoOverspend
import TokenPak.Proofs.OptimizerRecovery
import TokenPak.Proofs.PackAccount
import TokenPak.Proofs.PakPages
import TokenPak.Proofs.PatchConfinement
import TokenPak.Proofs.PendingFlush
import TokenPak.Proofs.PlanFiles
import TokenPak.Proofs.PressureActions
import TokenPak.Proofs.ProbeVerdict
import TokenPak.Proofs.RateBands
import TokenPak.Proofs.ReplayCancel
import TokenPak.Proofs.ResponseReuse
import TokenPak.Proofs.RestartConsumption
import TokenPak.Proofs.RetryEscalation
import TokenPak.Proofs.RunwayPrecedence
import TokenPak.Proofs.SavingsEvents
import TokenPak.Proofs.SingleProbe
import TokenPak.Proofs.SpanTiling
import TokenPak.Proofs.SpendWindow
import TokenPak.Proofs.StationBudget
import TokenPak.Proofs.StreamFragments
import TokenPak.Proofs.SuggestionLift
import TokenPak.Proofs.TerminalStatus
import TokenPak.Proofs.TipStripping
import TokenPak.Proofs.ToolOrder
import TokenPak.Proofs.TopicTiling
import TokenPak.Proofs.TranscriptLines
import TokenPak.Proofs.WalkForward
import TokenPak.Proofs.WindowedTrips
import TokenPak.Proofs.WorkflowStatus
