import LTSearch.Foundation.Table
import LTSearch.Foundation.Checks
import LTSearch.Foundation.Transaction
import LTSearch.Models.Index
import LTSearch.Models.Write
import LTSearch.Write.Wal
import LTSearch.Write.Api
import LTSearch.Sqlite.Schema
import LTSearch.Sqlite.Wal
import LTSearch.Sqlite.Queue
import LTSearch.Foundation.Run
import LTSearch.Sqlite.Ledger
import LTSearch.Sqlite.QueueInvariant
import LTSearch.Sqlite.QueueSteps
import LTSearch.Sqlite.Conservation
import LTSearch.Sqlite.Handles
import LTSearch.Sqlite.Delivery
import LTSearch.Sqlite.AtomicWrite
import LTSearch.Foundation.LastWriter
import LTSearch.Indexing.Builder
import LTSearch.Indexing.Replay
import LTSearch.Indexing.Buildable
import LTSearch.Foundation.Prog
import LTSearch.Foundation.Interleaving
import LTSearch.Storage.Paths
import LTSearch.Storage.Head
import LTSearch.Sqlite.Head
import LTSearch.Node.World
import LTSearch.Indexing.Publisher
import LTSearch.Node.Rules
import LTSearch.Indexing.FrozenHead
import LTSearch.Foundation.Bytes
import LTSearch.Foundation.Checked
import LTSearch.Index.CodecConfig
import LTSearch.Foundation.Layout
import LTSearch.Foundation.TopK
import LTSearch.Foundation.Sha256
import LTSearch.Index.Assets
import LTSearch.Index.Header
import LTSearch.Index.Record
import LTSearch.Index.Arith
import LTSearch.Index.TurboProd
import LTSearch.Index.TurboCodec
import LTSearch.Index.MmapIndex
import LTSearch.Index.Loaded
import LTSearch.Models.Search
import LTSearch.Query.TurboSearcher
import LTSearch.Query.SearchTotal
import LTSearch.Index.ReleaseManifest
import LTSearch.Index.StaticRelease
import LTSearch.Index.RotationQr
import LTSearch.Index.RoundTrip
import LTSearch.Index.BuildSucceeds
import LTSearch.Index.ReadBack
import LTSearch.Indexing.StaticVerify
import LTSearch.Indexing.VerifyBuilt
import LTSearch.Query.Servable
import LTSearch.Storage.StaticHead
import LTSearch.Node.Bucket
import LTSearch.Indexing.StaticActivate
import LTSearch.Indexing.RemoteActivation
import LTSearch.Foundation.PrefixCode
import LTSearch.Index.Preimage
import LTSearch.Indexing.ReleaseIdentity
import LTSearch.Indexing.ResumedActivation
import LTSearch.Foundation.Attempts
import LTSearch.Embedding.ModelAssets
import LTSearch.Models.Request
import LTSearch.Query.Ranker
import LTSearch.Storage.ManifestStore
import LTSearch.Query.Router
import LTSearch.Query.RouterSound
import LTSearch.Foundation.CallBound
import LTSearch.Query.RouterComplete
import LTSearch.Query.QueryService
import LTSearch.Query.CacheCoherence
import LTSearch.Foundation.FileTree
import LTSearch.Foundation.FileSystem
import LTSearch.Storage.StagedPublish
import LTSearch.Foundation.FaultPattern
import LTSearch.Storage.StagedRemoval
import LTSearch.Storage.StagedAtomic
import LTSearch.Foundation.BestK
import LTSearch.Query.TopKScan
import LTSearch.Foundation.BestPer
import LTSearch.Query.RetrievalCommon
import LTSearch.Query.VectorExact
import LTSearch.Foundation.Grouping
import LTSearch.Query.RrfExact
import LTSearch.Foundation.Canonical
import LTSearch.Index.AssetsCanonical
import LTSearch.Foundation.Grid
import LTSearch.Index.CodebookExact
import LTSearch.Foundation.Chunks
import LTSearch.Index.PackedCodes
import LTSearch.Index.TurboProdExact
import LTSearch.Index.TurboCodecExact
import LTSearch.Foundation.Stream
import LTSearch.Index.Gaussian
import LTSearch.Foundation.Calendar
import LTSearch.Foundation.Digits
import LTSearch.Write.SegmentKey
import LTSearch.Foundation.Shrinking
import LTSearch.Query.ContextBuilder
import LTSearch.Query.LanceCache
import LTSearch.Foundation.Walk
import LTSearch.Foundation.Descent
import LTSearch.Query.ShardTree
import LTSearch.Indexing.UploadTree
import LTSearch.Indexing.UploadInside
import LTSearch.Indexing.ConcurrentBuilds
import LTSearch.Foundation.SwapLog
import LTSearch.Indexing.HeadChain
import LTSearch.Indexing.BuildWorker
import LTSearch.Indexing.BuildContract
import LTSearch.Indexing.BuildPublish
import LTSearch.Indexing.BuildActivate
import LTSearch.Indexing.BuildLoop
import LTSearch.Indexing.BatchHistory
import LTSearch.Storage.ArtifactKeys
import LTSearch.Foundation.Separated
import LTSearch.Foundation.SortedMap
import LTSearch.JsonText
import LTSearch.JsonRender
import LTSearch.Index.LanceSource
import LTSearch.Index.Reproducible
import LTSearch.Index.ReleaseContent
import LTSearch.Foundation.SideBySide
import LTSearch.Indexing.LocalHeads
