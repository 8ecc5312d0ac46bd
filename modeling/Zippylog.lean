import Zippylog.Stream
import Zippylog.StreamProof
import Zippylog.StreamFile
import Zippylog.Store.Path
import Zippylog.Store
import Zippylog.RequestProcessor
import Zippylog.RequestProcessorProof
import Zippylog.Responses
import Zippylog.Segments
import Zippylog.Client
import Zippylog.ClientProof
import Zippylog.Replies
import Zippylog.Mirror
import Zippylog.MirrorProof
import Zippylog.Calendar
import Zippylog.Platform
import Zippylog.SimpleDirectoryStore
import Zippylog.SimpleDirectoryStoreProof
import Zippylog.Machine
import Zippylog.Seek
import Zippylog.ResponseState
import Zippylog.ResponseStateProof
import Zippylog.StoreWriter
import Zippylog.StoreWriterProof
import Zippylog.Delivery
import Zippylog.ServerLog
import Zippylog.PersistedStateManager
import Zippylog.PersistedStateManagerProof
import Zippylog.PersistedStateReactor
import Zippylog.ReactorNetwork
import Zippylog.ReactorNetworkProof
import Zippylog.EnvelopeCache
import Zippylog.EnvelopeCacheProof
import Zippylog.Robustness
import Zippylog.ClientRobustness
import Zippylog.ClientRun
import Zippylog.ClientRunProof
import Zippylog.SynchronousCalls
import Zippylog.LinuxTimer
import Zippylog.SubscriptionTimers
import Zippylog.Program
import Zippylog.StoreAccess
import Zippylog.Confinement
import Zippylog.Numbering
import Zippylog.ProtocGen
import Zippylog.ProtocGenOutput
import Zippylog.ProtocGenProof
import Zippylog.DirectoryWatcher
import Zippylog.DirectoryWatcherProof
import Zippylog.Interleaving
import Zippylog.ConcurrentStores
import Zippylog.RecordLocks
import Zippylog.StreamLocks
import Zippylog.SubscriptionLifetime
import Zippylog.Device
import Zippylog.DeviceProof
import Zippylog.StreamNames
import Zippylog.PythonStore
import Zippylog.Store.PathParser
import Zippylog.PostOffice
import Zippylog.Routing
import Zippylog.RoutingProof
import Zippylog.Outcomes
import Zippylog.Validation
import Zippylog.SubscriptionRequests
import Zippylog.WriteRequests
import Zippylog.Budget
import Zippylog.SegmentLimits
import Zippylog.FileStatus
import Zippylog.Framing
import Zippylog.EnvelopeLists
import Zippylog.Store.Components
import Zippylog.UntrustedEnvelopes
import Zippylog.Subscriptions
import Zippylog.DirectoryTree
import Zippylog.EnvelopeFilters
import Zippylog.StoreChangeResponses
import Zippylog.StoreListing
import Zippylog.SubscriptionRecords
import Zippylog.Durations
import Zippylog.Store.Uri
import Zippylog.RecordSizes
import Zippylog.Intervals
import Zippylog.LuaAllocator
import Zippylog.LuaStack
import Zippylog.LoadString
import Zippylog.LuaCalls
import Zippylog.Formatter
import Zippylog.StringLoader
import Zippylog.StoreWatcher
import Zippylog.Polling
import Zippylog.Server
import Zippylog.ServerProof
import Zippylog.ServerDevices
import Zippylog.TornSegments
import Zippylog.Tailing
import Zippylog.ServerStores
import Zippylog.LuaEnvelopes
import Zippylog.ServerConfig
import Zippylog.ServerEndpoints
import Zippylog.RemoveDirectory
import Zippylog.OrderedMap
import Zippylog.MessageRegistrar
