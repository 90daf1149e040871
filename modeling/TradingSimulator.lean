import TradingSimulator.Library.KeyedRows
import TradingSimulator.Library.KeyedRuns
import TradingSimulator.Library.Counters
import TradingSimulator.Library.Runs
import TradingSimulator.Library.Loops
import TradingSimulator.Library.TextRewriting
import TradingSimulator.Library.TextCuts
import TradingSimulator.Library.ExtNum
import TradingSimulator.Library.AverageCost
import TradingSimulator.Library.Lots
import TradingSimulator.Library.LotIntervals
import TradingSimulator.Library.ExpiringStore
import TradingSimulator.Library.QueryPrograms
import TradingSimulator.Library.Tables
import TradingSimulator.Library.Transactions
import TradingSimulator.Library.SingleFlight
import TradingSimulator.Library.PublishedLogs
import TradingSimulator.Library.Series
import TradingSimulator.Library.Causal
import TradingSimulator.Library.Compounding
import TradingSimulator.Library.Drawdown
import TradingSimulator.Library.ThresholdSplits
import TradingSimulator.Library.Tallies
import TradingSimulator.Library.Smoothing
import TradingSimulator.Library.Interpolation
import TradingSimulator.Library.SampleMoments
import TradingSimulator.Library.ExtSeries
import TradingSimulator.Library.LeastSquares
import TradingSimulator.Library.Covariance
import TradingSimulator.Library.Correlation
import TradingSimulator.Library.RollingWindow
import TradingSimulator.Library.Machines
import TradingSimulator.Library.Transitions
import TradingSimulator.Library.Rounding
import TradingSimulator.Config
import TradingSimulator.Models
import TradingSimulator.Core.DbBootstrap
import TradingSimulator.Core.WaitForDatabase
import TradingSimulator.Core.DatabaseUrl
import TradingSimulator.Core.RateLimit
import TradingSimulator.Market.MarketState
import TradingSimulator.Market.CandleEngine
import TradingSimulator.Market.CandleHeap
import TradingSimulator.Market.SyntheticProvider
import TradingSimulator.Market.Repainting
import TradingSimulator.Execution.ExecutionEngine
import TradingSimulator.Portfolio.EquityEngine
import TradingSimulator.Portfolio.SnapshotFailures
import TradingSimulator.Risk.RiskEngine
import TradingSimulator.Risk.GateFailures
import TradingSimulator.Api.Routes
import TradingSimulator.Api.LimitOrders
import TradingSimulator.Execution.AccountRows
import TradingSimulator.Execution.Ledger
import TradingSimulator.Execution.Sessions
import TradingSimulator.Execution.OrderRuns
import TradingSimulator.Api.TradeRuns
import TradingSimulator.Api.NonFinite
import TradingSimulator.Risk.RiskBound
import TradingSimulator.Portfolio.TradeLog
import TradingSimulator.Portfolio.PnlEngine
import TradingSimulator.Portfolio.Valuations
import TradingSimulator.Portfolio.Reconciliation
import TradingSimulator.Portfolio.FifoReference
import TradingSimulator.Portfolio.FlatAccounts
import TradingSimulator.Portfolio.PerformanceEngine
import TradingSimulator.Portfolio.PerformanceReplay
import TradingSimulator.Portfolio.SnapshotEngine
import TradingSimulator.Market.Quotes
import TradingSimulator.Auth.JwtHandler
import TradingSimulator.Auth.AuthService
import TradingSimulator.Auth.Revocation
import TradingSimulator.Auth.RefreshRotation
import TradingSimulator.Api.AuthRoutes
import TradingSimulator.Auth.AccountBook
import TradingSimulator.Auth.TokenProvenance
import TradingSimulator.Seed.Demo
import TradingSimulator.Seed.DemoReset
import TradingSimulator.Seed.DemoLogin
import TradingSimulator.Quant.Backtester
import TradingSimulator.Quant.NoLookahead
import TradingSimulator.Quant.TradeStatistics
import TradingSimulator.Quant.EquityBounds
import TradingSimulator.Quant.BacktestRun
import TradingSimulator.Quant.RegimeModel
import TradingSimulator.Quant.RegimeSummary
import TradingSimulator.Quant.LloydDescent
import TradingSimulator.Quant.ReturnPredictor
import TradingSimulator.Quant.PredictorNoLookahead
import TradingSimulator.Quant.MovingAverages
import TradingSimulator.Quant.BestSplit
import TradingSimulator.Quant.FittedTrees
import TradingSimulator.Quant.FeatureImportance
import TradingSimulator.Ml.Predictor
import TradingSimulator.Quant.SignalEngine
import TradingSimulator.Quant.SignalCache
import TradingSimulator.Quant.FiniteSignals
import TradingSimulator.Quant.Drawdowns
import TradingSimulator.Quant.VolForecast
import TradingSimulator.Quant.SurfaceReport
import TradingSimulator.Quant.Optimizer
import TradingSimulator.Quant.EfficientFrontier
import TradingSimulator.Quant.OptionPricer
import TradingSimulator.Quant.VolSurface
import TradingSimulator.Quant.Sentiment
import TradingSimulator.Quant.EventStudy
import TradingSimulator.Quant.SentimentReport
import TradingSimulator.Frontend.CandlestickChart
import TradingSimulator.Frontend.ApiClient
import TradingSimulator.Frontend.AuthSession
import TradingSimulator.Frontend.OrderSubmission
import TradingSimulator.Frontend.WebSocketEngine
import TradingSimulator.Frontend.WebSocketSafety
import TradingSimulator.Frontend.MessageQueue
import TradingSimulator.Websocket.Manager
import TradingSimulator.Websocket.MarketStream
import TradingSimulator.Websocket.StreamSafety
import TradingSimulator.Infra.RedisClient
import TradingSimulator.Lifespan
import TradingSimulator.Frontend.MarketBuffer
