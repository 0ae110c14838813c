import Asterion.Book.CheckInvariants
import Asterion.Book.ChecksumEncoding
import Asterion.Book.FlatOrderIndex
import Asterion.Book.LevelTotals
import Asterion.Book.Operations
import Asterion.Book.OrderBook
import Asterion.Book.PooledLevels
import Asterion.Book.PooledNodes
import Asterion.Book.PooledOrderBook
import Asterion.Book.PooledParity
import Asterion.Book.PooledQueries
import Asterion.Book.PooledSteps
import Asterion.Book.PriceTimeMap
import Asterion.Book.Queues
import Asterion.Book.Representation
import Asterion.Concurrency.SpscFifo
import Asterion.Concurrency.SpscReplay
import Asterion.Concurrency.SpscReplayFinish
import Asterion.Concurrency.SpscReplayParity
import Asterion.Concurrency.SpscReplayProgress
import Asterion.Concurrency.SpscRingBuffer
import Asterion.Core.Checksum
import Asterion.Core.HmacSha256
import Asterion.Core.HmacStandard
import Asterion.Core.LittleEndian
import Asterion.Core.Path
import Asterion.Core.SecureHashStandard
import Asterion.Core.Text
import Asterion.Core.Types
import Asterion.Ingestion.EscapingExceptions
import Asterion.Ingestion.EventRanges
import Asterion.Ingestion.Levels
import Asterion.Ingestion.Messages
import Asterion.Ingestion.Normaliser
import Asterion.Ingestion.Python
import Asterion.Ingestion.UpdateContinuity
import Asterion.Lib.Along
import Asterion.Lib.BlockStream
import Asterion.Lib.Blocks
import Asterion.Lib.Buckets
import Asterion.Lib.Decimal
import Asterion.Lib.Exceptions
import Asterion.Lib.FoldHash
import Asterion.Lib.InverseIndex
import Asterion.Lib.JsonLine
import Asterion.Lib.LinkedPath
import Asterion.Lib.OpenAddressing
import Asterion.Lib.PrefixCode
import Asterion.Lib.RateWindows
import Asterion.Lib.Ring
import Asterion.Lib.Rounds
import Asterion.Lib.Search
import Asterion.Lib.SortedMap
import Asterion.Lib.StoppingLoop
import Asterion.Lib.Sweep
import Asterion.Lib.Tally
import Asterion.Lib.Trace
import Asterion.Lib.WeightedMean
import Asterion.MarketData.BookSet
import Asterion.MarketData.Continuations
import Asterion.MarketData.Event
import Asterion.MarketData.EventCodec
import Asterion.MarketData.EventCsv
import Asterion.MarketData.EventLog
import Asterion.MarketData.EventLogCodec
import Asterion.MarketData.OrderTable
import Asterion.MarketData.Replay
import Asterion.MarketData.ReplayAggregate
import Asterion.MarketData.ReplayBook
import Asterion.MarketData.ReplayHalts
import Asterion.MarketData.ReplayModes
import Asterion.MarketData.ReplayParity
import Asterion.MarketData.ReplaySteps
import Asterion.MarketData.ReplayTotals
import Asterion.MarketData.ReplayValidation
import Asterion.MarketData.SequenceLaw
import Asterion.MarketData.Snapshots
import Asterion.MarketData.SyntheticAgreement
import Asterion.MarketData.SyntheticGenerator
import Asterion.MarketData.SyntheticReplay
import Asterion.MarketData.SyntheticScript
import Asterion.Matching.Accounting
import Asterion.Matching.Answers
import Asterion.Matching.Arithmetic
import Asterion.Matching.ArithmeticBounds
import Asterion.Matching.ArithmeticRuns
import Asterion.Matching.Consistent
import Asterion.Matching.Exchange
import Asterion.Matching.ExecutionReport
import Asterion.Matching.FillOrKill
import Asterion.Matching.History
import Asterion.Matching.MatchingEngine
import Asterion.Matching.OpenOrders
import Asterion.Matching.PostOnly
import Asterion.Matching.Priority
import Asterion.Matching.Refinement
import Asterion.Matching.Rejections
import Asterion.Matching.Runs
import Asterion.Matching.SelfTrade
import Asterion.Matching.Simulation
import Asterion.Matching.SmallSteps
import Asterion.Matching.Steps
import Asterion.Risk.AuditChain
import Asterion.Risk.AuditLines
import Asterion.Risk.AuditManifest
import Asterion.Risk.AuditRecorder
import Asterion.Risk.AuditRoundTrip
import Asterion.Risk.ClientBooks
import Asterion.Risk.ClientOrderIdSet
import Asterion.Risk.ExchangeIndex
import Asterion.Risk.Exposure
import Asterion.Risk.FixedWindow
import Asterion.Risk.GatewayAudit
import Asterion.Risk.GatewayLimits
import Asterion.Risk.GatewaySteps
import Asterion.Risk.IterationOrder
import Asterion.Risk.ManifestChecks
import Asterion.Risk.ManifestPayload
import Asterion.Risk.ManifestRoundTrip
import Asterion.Risk.PortfolioAccounting
import Asterion.Risk.PortfolioChecks
import Asterion.Risk.PortfolioOverflow
import Asterion.Risk.PortfolioRisk
import Asterion.Risk.RateLimit
import Asterion.Risk.RejectedChecks
import Asterion.Risk.RiskAudit
import Asterion.Risk.RiskGateway
import Asterion.Risk.RotatedLogs
import Asterion.Risk.SelfTradeAgreement
import Asterion.Risk.Switches
import Asterion.Risk.TerminalReports
import Asterion.Risk.WorkingMoves
import Asterion.Risk.WorkingTables
import Asterion.Session.BrokerSession
import Asterion.Session.Connectivity
import Asterion.Session.SessionLog
import Asterion.Telemetry.LatencyBudget
import Asterion.Telemetry.WorstOffender
import Asterion.Testing.CrossCheck
import Asterion.Testing.Mirrors
import Asterion.Testing.ReferenceMatcher
