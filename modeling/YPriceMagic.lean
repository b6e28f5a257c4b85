import YPriceMagic.Async.Entries
import YPriceMagic.Async.Run
import YPriceMagic.Async.Semaphore
import YPriceMagic.Async.Log
import YPriceMagic.Async.Task
import YPriceMagic.Async.Gather
import YPriceMagic.Runtime.BackgroundWarmup
import YPriceMagic.Runtime.LookupSupervisor
import YPriceMagic.Runtime.SlotConservation
import YPriceMagic.Runtime.RunningTasks
import YPriceMagic.Runtime.Foreground
import YPriceMagic.Runtime.DeadlineMiddleware
import YPriceMagic.Async.Coroutine
import YPriceMagic.Server.Upstream
import YPriceMagic.Server.Cache
import YPriceMagic.Server.Responses
import YPriceMagic.Server.Lookup
import YPriceMagic.Server.Handlers
import YPriceMagic.Server.Batch
import YPriceMagic.Server.Interleaving
import YPriceMagic.Server.LookupSpecs
import YPriceMagic.Server.HandlerSpecs
import YPriceMagic.Server.CacheSoundness
import YPriceMagic.Server.LostUpdate
import YPriceMagic.Server.Slots
import YPriceMagic.Server.SlotHolding
import YPriceMagic.Frontend.JsMap
import YPriceMagic.Frontend.TokenIndex
import YPriceMagic.Frontend.Tokenlist
import YPriceMagic.Frontend.StoreSteps
import YPriceMagic.Frontend.InitOverlap
import YPriceMagic.Frontend.TokenlistModal
import YPriceMagic.Frontend.Persistence
import YPriceMagic.Python.Binary64
import YPriceMagic.Python.Numerals
import YPriceMagic.Python.Datetime
import YPriceMagic.Server.Params
import YPriceMagic.Server.ParamsTotal
import YPriceMagic.Frontend.Api
import YPriceMagic.Server.Query
import YPriceMagic.Server.TimestampRange
import YPriceMagic.Frontend.RoundTrip
import YPriceMagic.Runtime.Draining
import YPriceMagic.Server.Health
import YPriceMagic.Async.Forest
import YPriceMagic.Async.History
import YPriceMagic.Async.Scopes
import YPriceMagic.Server.Prewarm
import YPriceMagic.Server.RequiredPrewarm
import YPriceMagic.Async.Tending
import YPriceMagic.Server.WarmupTasks
import YPriceMagic.Server.LoaderIsolation
import YPriceMagic.Server.UniswapPrewarm
import YPriceMagic.Server.RouterIsolation
import YPriceMagic.Async.Replies
import YPriceMagic.Server.ErrorEnvelope
import YPriceMagic.Frontend.EnabledFlags
import YPriceMagic.Server.Addresses
import YPriceMagic.Server.HandedOn
import YPriceMagic.Server.BatchGrammar
import YPriceMagic.Python.Replace
import YPriceMagic.Server.Redaction
import YPriceMagic.Python.ExpiringStore
import YPriceMagic.Server.DiskCache
import YPriceMagic.Server.FailureStatus
import YPriceMagic.Async.Lock
import YPriceMagic.Server.BucketLocks
import YPriceMagic.Runtime.DisconnectWatch
import YPriceMagic.Runtime.Admission
import YPriceMagic.Runtime.CancelledCallers
import YPriceMagic.Frontend.IndexEntries
import YPriceMagic.Frontend.Best
import YPriceMagic.Frontend.SearchTokens
import YPriceMagic.Frontend.EffectivePair
import YPriceMagic.Frontend.Reachable
import YPriceMagic.Frontend.Toggling
import YPriceMagic.Frontend.Adding
import YPriceMagic.Frontend.KnownTokens
import YPriceMagic.Frontend.PairSource
import YPriceMagic.Frontend.ModalRuns
import YPriceMagic.Frontend.Autocomplete
import YPriceMagic.Frontend.QuoteForm
import YPriceMagic.Async.Interrupts
import YPriceMagic.Runtime.WarmupStatements
import YPriceMagic.Server.ShutdownSignal
import YPriceMagic.Server.SignalSafety
import YPriceMagic.Server.SignalWindows
import YPriceMagic.Server.LookupAnswers
import YPriceMagic.Server.HandlerAnswers
import YPriceMagic.Server.ResponseSoundness
import YPriceMagic.Async.Turns
import YPriceMagic.Runtime.Fairness
import YPriceMagic.Server.CacheHandle
import YPriceMagic.Async.Pool
import YPriceMagic.Scripts.RetryAll
import YPriceMagic.Scripts.RetryLanding
import YPriceMagic.Runtime.Liveness
import YPriceMagic.Async.LockWaiters
import YPriceMagic.Server.BucketLiveness
import YPriceMagic.Server.SingleToken
import YPriceMagic.Server.WrittenTimestamps
import YPriceMagic.Frontend.HealthIndicator
import YPriceMagic.Frontend.ExportImport
import YPriceMagic.Frontend.SharedLink
import YPriceMagic.Frontend.Responses
import YPriceMagic.Frontend.Settlements
import YPriceMagic.Frontend.Site
import YPriceMagic.Frontend.ServedQuotes
