import Cvf.Library.Run
import Cvf.Binance.Exchange
import Cvf.Okx.Agreement
import Cvf.Okx.Books5
import Cvf.Features.BookEpoch
import Cvf.Features.BookBuffered
import Cvf.Features.BookChanges
import Cvf.Features.PriceCacheExact
import Cvf.Features.PriceCacheLineage
import Cvf.Features.DepthWalk
import Cvf.Features.MetricWarmup
import Cvf.Features.Retention
import Cvf.Features.CrossVenueSymmetry
import Cvf.Features.RuntimeHistory
import Cvf.Binance.Agreement
import Cvf.Binance.FailedFrames
import Cvf.Replay.Reorder
import Cvf.Replay.SequenceOrder
import Cvf.Monitoring.Health
import Cvf.Exchanges.Session
import Cvf.Exchanges.SessionLifecycle
import Cvf.Pipeline.Order
import Cvf.Clock.Grid
import Cvf.Exchanges.Deduplication
import Cvf.Storage.CleanClose
import Cvf.Storage.FeatureCompare
import Cvf.Storage.FirstContent
import Cvf.Storage.FeatureExactlyOnce
import Cvf.Features.HealthFeed
import Cvf.Library.FileTree
import Cvf.Replay.CleanReplay
import Cvf.Features.SingleVenue
import Cvf.Features.EngineRuns
import Cvf.Features.DrivenRuntime
import Cvf.Storage.ArrivalTrees
