import AatsSniper.Lib.Bytes
import AatsSniper.Lib.Except
import AatsSniper.Lib.Decimal
import AatsSniper.Lib.Sha256
import AatsSniper.Lib.Base64
import AatsSniper.Lib.Text
import AatsSniper.Lib.Json
import AatsSniper.Lib.JsonDumps
import AatsSniper.Lib.JsonRoundTrip
import AatsSniper.Lib.Run
import AatsSniper.Lib.Table
import AatsSniper.Lib.Memo
import AatsSniper.Lib.Window
import AatsSniper.Lib.Act
import AatsSniper.Lib.Codec
import AatsSniper.Lib.Varint
import AatsSniper.Lib.LastJoin
import AatsSniper.Lib.Bucket
import AatsSniper.Lib.Factors
import AatsSniper.Lib.ConstantProduct
import AatsSniper.Lib.Wilson
import AatsSniper.Lib.SlidingWindow
import AatsSniper.Lib.Regex
import AatsSniper.Lib.LastWrite
import AatsSniper.Lib.Ticket
import AatsSniper.Lib.Lucas
import AatsSniper.Lib.Edwards
import AatsSniper.Lib.Lru
import AatsSniper.Lib.Executor
import AatsSniper.Wire.Base58
import AatsSniper.Wire.Transaction
import AatsSniper.Wire.Layout
import AatsSniper.Wire.Canonical
import AatsSniper.Wire.Build
import AatsSniper.Signer.Ata
import AatsSniper.Signer.Policy
import AatsSniper.Signer.Enforcer
import AatsSniper.Signer.Process
import AatsSniper.Signer.Caching
import AatsSniper.Signer.Verdict
import AatsSniper.Signer.Runs
import AatsSniper.Signer.Pricing
import AatsSniper.Signer.Velocity
import AatsSniper.Signer.Outflow
import AatsSniper.Signer.SignedMessage
import AatsSniper.Signer.Curve
import AatsSniper.Signer.Keyless
import AatsSniper.Signer.Answers
import AatsSniper.Builder.TxBuilder
import AatsSniper.Exit.Config
import AatsSniper.Exit.Engine
import AatsSniper.Exit.Step
import AatsSniper.Exit.Floor
import AatsSniper.Exit.Ladder
import AatsSniper.Exit.History
import AatsSniper.Exit.Scale
import AatsSniper.Exit.Levels
import AatsSniper.Exit.Line
import AatsSniper.Breaker.Config
import AatsSniper.Breaker.CircuitBreaker
import AatsSniper.Breaker.Trips
import AatsSniper.Breaker.Outcome
import AatsSniper.Breaker.Pause
import AatsSniper.Breaker.Latch
import AatsSniper.Breaker.Restart
import AatsSniper.Gate.PretradeGate
import AatsSniper.Gate.AntiFomo
import AatsSniper.Gate.LiquiditySanity
import AatsSniper.Gate.Denylist
import AatsSniper.Gate.DenylistRuns
import AatsSniper.Orders.Sizing
import AatsSniper.Orders.Resting
import AatsSniper.Orders.Book
import AatsSniper.Orders.Tick
import AatsSniper.Orders.Keeper
import AatsSniper.Orders.Dca
import AatsSniper.Orders.Shrinks
import AatsSniper.Controller.State
import AatsSniper.Controller.SnipeLoop
import AatsSniper.Controller.FastLoop
import AatsSniper.Controller.Reconcile
import AatsSniper.Controller.Ledger
import AatsSniper.Controller.Flatten
import AatsSniper.Controller.Tick
import AatsSniper.Controller.Fill
import AatsSniper.Controller.Entries
import AatsSniper.Controller.InFlight
import AatsSniper.Controller.Turns
import AatsSniper.Controller.Exits
import AatsSniper.Controller.Tidy
import AatsSniper.Controller.MidTick
import AatsSniper.Controller.Holding
import AatsSniper.Controller.Layer2
import AatsSniper.Controller.Projection
import AatsSniper.Controller.Told
import AatsSniper.Controller.Books
import AatsSniper.Controller.Sizes
import AatsSniper.Controller.Exposure
import AatsSniper.Stops.Coordinator
import AatsSniper.Stops.OneLine
import AatsSniper.Dms.Watchdog
import AatsSniper.Dms.DeadMansSwitch
import AatsSniper.Dms.Retry
import AatsSniper.Dms.Presigned
import AatsSniper.Venue.Client
import AatsSniper.Venue.Fills
import AatsSniper.Venue.Lands
import AatsSniper.Signer.Client
import AatsSniper.Signer.Remote
import AatsSniper.Backtest.Folds
import AatsSniper.Backtest.Reputation
import AatsSniper.Backtest.BadRecords
import AatsSniper.Backtest.ReactionLevels
import AatsSniper.Backtest.PaperWalk
import AatsSniper.Execution.MultiWallet
import AatsSniper.ControlPlane.RiskConfig
import AatsSniper.Ingestion.Base58
import AatsSniper.Ingestion.CreatorOutflow
import AatsSniper.Ingestion.CreatorRegistration
import AatsSniper.Ingestion.DeployerReputation
import AatsSniper.Ingestion.Decoders
import AatsSniper.Ingestion.FundingAge
import AatsSniper.Ingestion.PoolEvents
import AatsSniper.Ingestion.FundingLineage
import AatsSniper.Ingestion.InsiderDump
import AatsSniper.Ingestion.ShadowCorpus
import AatsSniper.Ingestion.Completeness
import AatsSniper.Ingestion.CompletenessGate
import AatsSniper.Ingestion.SmartMoney
import AatsSniper.Ingestion.SmartMoneyReplay
import AatsSniper.Ingestion.Bus
import AatsSniper.Ingestion.BusRuns
import AatsSniper.Mev.SplitExit
import AatsSniper.Features.Microstructure
import AatsSniper.Features.Tally
import AatsSniper.Features.ArrivalState
import AatsSniper.Features.ArrivalOrder
import AatsSniper.Models.LabelJoin
import AatsSniper.Models.TimeSplit
import AatsSniper.Models.RegimeSellability
import AatsSniper.Models.GateB
import AatsSniper.Sentiment.Velocity
import AatsSniper.Sentiment.BotsCost
import AatsSniper.Sentiment.CallExtract
import AatsSniper.Reasoning.Prompt
import AatsSniper.Reasoning.Reasoner
import AatsSniper.Reasoning.Transparency
import AatsSniper.Backtest.RealizableExit
import AatsSniper.Backtest.EntryLatency
import AatsSniper.Backtest.BlockTimeCache
import AatsSniper.Backtest.Prefetch
import AatsSniper.Backtest.Sessions
import AatsSniper.Backtest.Prefetched
import AatsSniper.Controller.Admission
import AatsSniper.ControlPlane.Halt
import AatsSniper.Telegram.Client
import AatsSniper.Telegram.Alerts
import AatsSniper.Telegram.Service
