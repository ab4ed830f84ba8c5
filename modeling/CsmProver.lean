import CsmProver.Async.Program
import CsmProver.Async.Logic
import CsmProver.Async.Pool
import CsmProver.Async.Loop
import CsmProver.Async.Yields
import CsmProver.Async.Resumes
import CsmProver.Async.Exclusive
import CsmProver.Async.Counting
import CsmProver.MapFolds
import CsmProver.ReplayWalk
import CsmProver.Types
import CsmProver.Consensus
import CsmProver.World
import CsmProver.KeysIndexer
import CsmProver.KeysIndex
import CsmProver.KeysIndexRuns
import CsmProver.KeysFreshness
import CsmProver.RootsStack
import CsmProver.Duties
import CsmProver.PayloadLoop
import CsmProver.RootsProcessor
import CsmProver.ServiceMoves
import CsmProver.DutyGuarantees
import CsmProver.DutySelection
import CsmProver.TrustWindow
import CsmProver.Walk
import CsmProver.WalkProgress
import CsmProver.ExactlyOnce
import CsmProver.Strikes
import CsmProver.StrikesSelection
import CsmProver.StrikesRounds
import CsmProver.StrikesCoverage
import CsmProver.StrikesJustified
import CsmProver.StrikesReports
import CsmProver.Execution
import CsmProver.Nonces
import CsmProver.Broadcasts
import CsmProver.MerkleTree
import CsmProver.Proofs
import CsmProver.RingHistory
import CsmProver.HistoricalSummaries
import CsmProver.FeeHistory
import CsmProver.FeeCache
import CsmProver.FeePercentile
import CsmProver.DaemonLoop
import CsmProver.DaemonGuards
import CsmProver.DaemonRuns
import CsmProver.DaemonTasks
import CsmProver.DaemonStrikes
import CsmProver.DaemonWalk
import CsmProver.IndexInUse
import CsmProver.DaemonIndex
import CsmProver.RootPhases
import CsmProver.ColdStart
import CsmProver.SlashingRules
import CsmProver.UnprovenKeys
import CsmProver.PayloadBuilders
import CsmProver.SlashedPayloads
import CsmProver.PayloadKeys
import CsmProver.ReportedKeys
import CsmProver.DaemonReports
import CsmProver.DaemonKeys
import CsmProver.BalanceScan
import CsmProver.BalanceReports
import CsmProver.WithdrawalPayloads
import CsmProver.StrikesBatches
import CsmProver.SentCounts
import CsmProver.ProveCommand
import CsmProver.ProveCommandRuns
import CsmProver.FirstOfGroup
import CsmProver.FirstBlocks
import CsmProver.InsertionMap
import CsmProver.RecencyList
import CsmProver.LruCache
import CsmProver.SingleFlight
import CsmProver.CacheHistory
import CsmProver.ConsensusClient
import CsmProver.Binary64
import CsmProver.RestProvider
import CsmProver.RetrierBudget
import CsmProver.RequestFallback
import CsmProver.JsNumber
import CsmProver.OperatorFilter
