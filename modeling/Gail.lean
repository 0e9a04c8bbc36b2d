import Gail.Elm.FallbackChoice
import Gail.Elm.RevisionControl
import Gail.Elm.WriteFailures
import Gail.Elm.ArtifactFiles
import Gail.Trading.ArmRepair
import Gail.Trading.ArmSelection
import Gail.Trading.PromotionStreak
import Gail.Trading.DemotionEvidence
import Gail.Orchestration.ReadinessCache
import Gail.Elm.InferenceFailures
import Gail.Orchestration.Reservations
import Gail.Orchestration.WaveExhaustion
import Gail.Trading.ExecutionRuns
import Gail.Datalake.LakeRuns
import Gail.Trading.ResolutionRollback
import Gail.Elm.TrainingJobs
import Gail.Governance.Enforcement
import Gail.Alexa.AnswerRuns
import Gail.Trading.ChunkInfluence
import Gail.Gateway.ChatReplies
import Gail.Trading.BacktestOwners
import Gail.Trading.TuningTrials
import Gail.Trading.PaperEvidence
import Gail.Trading.OverrideRuns
import Gail.Trading.ScanCoverage
import Gail.Gateway.CredentialLeaks
import Gail.Aer.AerFields
import Gail.Aer.Spikes
import Gail.Elm.TrainAndEvaluate
import Gail.Elm.CanaryScanRuns
import Gail.Trading.PaperWindows
import Gail.Trading.PortfolioCaps
import Gail.Trading.FoldLookahead
import Gail.Trading.OverfitEstimate
import Gail.Metrics.RequestFlow
import Gail.Gateway.CompactedSize
import Gail.Gateway.RetainedTurns
import Gail.Trading.OutcomeRuns
import Gail.Trading.StateRings
import Gail.Trading.FeedbackSides
import Gail.Trading.TradeBounds
import Gail.Trading.AllocationOrder
import Gail.Trading.ConfigRepair
import Gail.Metrics.ResponseTimes
import Gail.Trading.GraphHistory
import Gail.Trading.ExchangeCircuit
import Gail.Orchestration.RoundRobin
import Gail.Trading.AdvisoryPrompt
import Gail.Metrics.UsagePenalty
import Gail.Alexa.Timestamps
import Gail.Alexa.Speech
import Gail.Governance.Inspection
import Gail.Elm.InfluenceGates
import Gail.Trading.OrderRouting
import Gail.Trading.MeasuredHorizons
import Gail.Gateway.ManagerToolCalls
import Gail.Gateway.PlanCache
import Gail.Ledger.MirrorOrder
import Gail.Ledger.PromotionRuns
import Gail.Gateway.Redaction
