import TradingPlatform.Lib.Interleave
import TradingPlatform.Lib.Table
import TradingPlatform.Control.LocalBus
import TradingPlatform.Control.TerminalStatus
import TradingPlatform.Control.ExactlyOnce
import TradingPlatform.Control.FetchSpec
import TradingPlatform.Control.CrashRecovery
import TradingPlatform.Control.Idempotency
import TradingPlatform.Lib.Drain
import TradingPlatform.Control.EmergencyClaim
import TradingPlatform.Engine.RiskEscalation
import TradingPlatform.Execution.BootReconciliation
import TradingPlatform.Lifecycle.HashChain
import TradingPlatform.Control.HeartbeatWatchdog
import TradingPlatform.Engine.AutomaticTrips
import TradingPlatform.Engine.WatchdogRecovery
import TradingPlatform.Engine.PreemptionLatch
import TradingPlatform.Engine.DegradationManager
import TradingPlatform.Engine.StagedRecovery
import TradingPlatform.Engine.ReconLatch
import TradingPlatform.Engine.ReservedCapital
import TradingPlatform.Engine.RunbookExecution
import TradingPlatform.Broker.Simulated
import TradingPlatform.Core.RollingWindow
import TradingPlatform.Lib.LockTable
import TradingPlatform.Execution.PositionTracker
import TradingPlatform.Execution.IdempotentSubmitter
import TradingPlatform.Lib.Tokens
import TradingPlatform.Execution.ExecutionAdapter
import TradingPlatform.Persistence.WriteQueue
import TradingPlatform.Broker.OrderPolling
import TradingPlatform.Engine.BrokerFillSieve
import TradingPlatform.Engine.SieveInterleaving
import TradingPlatform.Persistence.StageDrain
import TradingPlatform.Portfolio.StepCap
import TradingPlatform.Engine.KillSwitchRaces
import TradingPlatform.Engine.FlattenProtocol
import TradingPlatform.Engine.PortfolioRiskGovernor
import TradingPlatform.Engine.KeptLegs
import TradingPlatform.Engine.PortfolioCoordinator
import TradingPlatform.Engine.InventoryLockout
import TradingPlatform.Engine.ForcedLiquidation
import TradingPlatform.Engine.InventoryRegistry
import TradingPlatform.Engine.PreFlightReconciliation
import TradingPlatform.Engine.CapacityGovernor
import TradingPlatform.Engine.ChangeJournal
import TradingPlatform.Execution.RestartResubmission
import TradingPlatform.Broker.FillReports
import TradingPlatform.Backtest.VectorizedMr
import TradingPlatform.Backtest.SweepLedger
import TradingPlatform.Backtest.ScanParity
import TradingPlatform.Engine.ExDividendGaps
import TradingPlatform.Engine.ExDividendSchedule
import TradingPlatform.Research.CombinatorialPurgedCv
import TradingPlatform.Research.KnifeEdgeBands
import TradingPlatform.Research.Resample
import TradingPlatform.Ingestor.ShadowSchedule
import TradingPlatform.Ingestor.ClosedWindows
import TradingPlatform.Ingestor.TapeAlignment
import TradingPlatform.Engine.ColdStartGate
import TradingPlatform.Ingestor.ExchangeClock
import TradingPlatform.Ingestor.RecentBars
import TradingPlatform.Ingestor.Coordinator
import TradingPlatform.Alerts.OutboundCap
import TradingPlatform.Execution.AverageEntry
import TradingPlatform.Engine.PreemptionScope
import TradingPlatform.Strategies.RegimeFilter
import TradingPlatform.Persistence.WeeklyConservation
import TradingPlatform.Engine.HaltRecovery
import TradingPlatform.Engine.LostUpdates
import TradingPlatform.Engine.CommitAtomicity
import TradingPlatform.Engine.EveningRollback
import TradingPlatform.Engine.SovereignAuthority
import TradingPlatform.Core.WindowReset
import TradingPlatform.Lifecycle.RefitLineage
import TradingPlatform.Broker.ShortMargin
import TradingPlatform.Persistence.DrainLimiter
import TradingPlatform.Persistence.LedgerReplica
import TradingPlatform.Lib.Delimited
import TradingPlatform.Lib.Date
import TradingPlatform.Lib.Datetime
import TradingPlatform.Execution.OrderIdentity
import TradingPlatform.Engine.FlattenAccounting
import TradingPlatform.Lib.Like
import TradingPlatform.Persistence.PendingOrders
import TradingPlatform.Lib.JsonText
import TradingPlatform.Engine.RunbookFailsClosed
import TradingPlatform.Engine.RunbookVerdict
import TradingPlatform.Lifecycle.DemotionMonitors
import TradingPlatform.Engine.RiskBudgets
import TradingPlatform.Engine.EntryReconstruction
import TradingPlatform.Broker.ForcedFlatten
import TradingPlatform.Broker.SymbolFills
import TradingPlatform.Lib.Moments
import TradingPlatform.Backtest.IndicatorSeries
import TradingPlatform.Backtest.EquityStatistics
import TradingPlatform.Engine.UnmeasuredCorrelation
import TradingPlatform.Portfolio.AllocatorDomain
import TradingPlatform.Lifecycle.ConfigHash
import TradingPlatform.Research.HaircutSharpe
import TradingPlatform.Research.NeighborSmoothing
import TradingPlatform.Lib.Quantile
import TradingPlatform.Research.StepwiseRw
import TradingPlatform.Research.GateS
import TradingPlatform.Research.PboCscv
import TradingPlatform.Research.ResamplePartition
import TradingPlatform.Research.PermuteBars
import TradingPlatform.Ingestor.FeedIngestGuard
import TradingPlatform.Control.LegReturn
import TradingPlatform.Engine.DriftEvaluator
import TradingPlatform.Alerts.ThrottledNotifier
import TradingPlatform.Lib.Words
import TradingPlatform.Engine.StatusTokens
import TradingPlatform.Lib.LastPoint
import TradingPlatform.Core.MarketCalendar
import TradingPlatform.Core.EffectiveReference
import TradingPlatform.Engine.SloMonitor
import TradingPlatform.Engine.IntegritySeverity
import TradingPlatform.Lib.Grid
import TradingPlatform.Engine.MissingBars
import TradingPlatform.Lib.Outlier
import TradingPlatform.Engine.MacroVelocity
import TradingPlatform.Engine.LargeJumps
import TradingPlatform.Engine.EventPosture
import TradingPlatform.Engine.DangerMonotone
import TradingPlatform.Lifecycle.StateMachine
import TradingPlatform.Lib.TrailingCount
import TradingPlatform.Lib.Since
import TradingPlatform.Engine.TelemetryGate
import TradingPlatform.DataQuality.Monitors
import TradingPlatform.Research.SpaHansen
import TradingPlatform.Backtest.AsymmetricScan
import TradingPlatform.Strategies.MeanReversionStrategy
import TradingPlatform.Lib.Streak
import TradingPlatform.Ingestor.FeedStreamHealth
import TradingPlatform.Ingestor.IngestCircuitBreaker
import TradingPlatform.Lib.Causal
import TradingPlatform.Backtest.NoLookAhead
import TradingPlatform.Lib.Writes
import TradingPlatform.Backtest.SweepGrid
import TradingPlatform.Control.SessionManager
import TradingPlatform.Control.MaintenanceTicks
import TradingPlatform.Backtest.WalkForward
import TradingPlatform.Engine.EveningEvaluators
import TradingPlatform.Lib.Tally
import TradingPlatform.Lib.IsoTime
import TradingPlatform.Engine.Attribution
import TradingPlatform.Engine.AttributionReconcile
import TradingPlatform.Engine.SlippageModelCalibrator
import TradingPlatform.Engine.ExecutionFeedback
