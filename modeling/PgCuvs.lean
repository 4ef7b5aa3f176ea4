import PgCuvs.Alignment
import PgCuvs.Backend.Append
import PgCuvs.Backend.AppendCrash
import PgCuvs.Backend.Circuit
import PgCuvs.Backend.DeltaGate
import PgCuvs.Backend.DropNotify
import PgCuvs.Backend.FallbackStats
import PgCuvs.Backend.FilteredKnn
import PgCuvs.Backend.FilteredScan
import PgCuvs.Backend.Gates
import PgCuvs.Backend.GcOrphans
import PgCuvs.Backend.HeapScan
import PgCuvs.Backend.Merge
import PgCuvs.Backend.NullFilter
import PgCuvs.Backend.Scan
import PgCuvs.Backend.StreamedScan
import PgCuvs.Backend.Writes
import PgCuvs.Build.AutoShards
import PgCuvs.Build.Handle
import PgCuvs.Build.Other
import PgCuvs.Build.Register
import PgCuvs.Build.Request
import PgCuvs.BuiltRows
import PgCuvs.Caches
import PgCuvs.Capacity
import PgCuvs.Checksum
import PgCuvs.Codec
import PgCuvs.Corpus.FdRecv
import PgCuvs.Corpus.Reaper
import PgCuvs.Corpus.Segments
import PgCuvs.Crash.Commit
import PgCuvs.Crash.Core
import PgCuvs.Crash.History
import PgCuvs.Crash.Loads
import PgCuvs.Crash.Settled
import PgCuvs.Crash.Sharded
import PgCuvs.Daemon
import PgCuvs.DeltaFreshness
import PgCuvs.DeltaMerge
import PgCuvs.DeltaMerged
import PgCuvs.Disk
import PgCuvs.DropComplete
import PgCuvs.DropFiles
import PgCuvs.Evict
import PgCuvs.EvictionPicks
import PgCuvs.EvictionRoom
import PgCuvs.Export.Complete
import PgCuvs.Export.Decode
import PgCuvs.Export.Halfvec
import PgCuvs.Export.Hnswlib
import PgCuvs.Export.HnswlibBounds
import PgCuvs.Export.HnswlibSafe
import PgCuvs.Export.Links
import PgCuvs.Export.Pages
import PgCuvs.Export.Source
import PgCuvs.Export.Tuples
import PgCuvs.FailedBuild
import PgCuvs.Gone
import PgCuvs.HnswPairs
import PgCuvs.Invariants
import PgCuvs.Ipc.Delivery
import PgCuvs.Ipc.Exchange
import PgCuvs.Ipc.Progress
import PgCuvs.Ipc.Wire
import PgCuvs.LatencyStats
import PgCuvs.Library.BinaryFloat
import PgCuvs.Library.BinarySearch
import PgCuvs.Library.CheckedBody
import PgCuvs.Library.CodeText
import PgCuvs.Library.Compaction
import PgCuvs.Library.CountedLog
import PgCuvs.Library.CrashPrefix
import PgCuvs.Library.Cursor
import PgCuvs.Library.Histogram
import PgCuvs.Library.Insertion
import PgCuvs.Library.Ledger
import PgCuvs.Library.Numerals
import PgCuvs.Library.Owners
import PgCuvs.Library.Pipe
import PgCuvs.Library.QuotedText
import PgCuvs.Library.Records
import PgCuvs.Library.Ring
import PgCuvs.Library.Run
import PgCuvs.Library.Scopes
import PgCuvs.Library.Selection
import PgCuvs.Library.ShiftCrc
import PgCuvs.Library.SlotTable
import PgCuvs.Library.Stable
import PgCuvs.Library.Traced
import PgCuvs.Lifecycle
import PgCuvs.Linked
import PgCuvs.Load
import PgCuvs.LoadSpec
import PgCuvs.Manifest
import PgCuvs.ParallelBuild
import PgCuvs.Persist
import PgCuvs.Placement
import PgCuvs.Registry
import PgCuvs.RegistryKeys
import PgCuvs.RegistrySteps
import PgCuvs.Reload
import PgCuvs.RequestSteps
import PgCuvs.RevMap
import PgCuvs.Room
import PgCuvs.Search.Answers
import PgCuvs.Search.BatchAnswers
import PgCuvs.Search.BatchGroup
import PgCuvs.Search.BatchQueue
import PgCuvs.Search.BruteForce
import PgCuvs.Search.DWedge
import PgCuvs.Search.Deferred
import PgCuvs.Search.DeferredMoves
import PgCuvs.Search.Dispatch
import PgCuvs.Search.DispatchRuns
import PgCuvs.Search.Exact
import PgCuvs.Search.FilterExact
import PgCuvs.Search.Frame
import PgCuvs.Search.Handle
import PgCuvs.Search.Moves
import PgCuvs.Search.Prefilter
import PgCuvs.Search.Results
import PgCuvs.Search.SearchBatch
import PgCuvs.Search.Signed
import PgCuvs.Search.StreamBf
import PgCuvs.Search.Whitelist
import PgCuvs.Search.WhitelistLeaks
import PgCuvs.Serve
import PgCuvs.Shim.Exact
import PgCuvs.Shim.File
import PgCuvs.Shim.Index
import PgCuvs.Shim.Kernels
import PgCuvs.Shim.Runs
import PgCuvs.Shutdown
import PgCuvs.Sidecar
import PgCuvs.SlotReuse
import PgCuvs.Snapshot.Download
import PgCuvs.Snapshot.ManifestJson
import PgCuvs.Snapshot.ManifestLast
import PgCuvs.Snapshot.Names
import PgCuvs.Snapshot.Restore
import PgCuvs.Snapshot.Upload
import PgCuvs.Transient.Exact
import PgCuvs.Transient.Runs
import PgCuvs.Transient.Search
import PgCuvs.Types
import PgCuvs.Util
import PgCuvs.Warmup.Consistency
import PgCuvs.Warmup.Pool
import PgCuvs.Warmup.Registry
import PgCuvs.Write
