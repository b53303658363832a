import LanLink.Core.Words
import LanLink.Core.Runs
import LanLink.Protocol.Frame
import LanLink.Protocol.Crypto
import LanLink.Protocol.Control
import LanLink.Protocol.Reliable
import LanLink.Protocol.ReliableSafety
import LanLink.Protocol.Reordering
import LanLink.Core.Blocks
import LanLink.Storage.Chunk
import LanLink.Storage.Diff
import LanLink.Storage.DiffPatch
import LanLink.Core.Quorum
import LanLink.Registry.Election
import LanLink.Registry.ElectionNetwork
import LanLink.Registry.ElectionSafety
import LanLink.Daemon.Connection
import LanLink.Daemon.Packets
import LanLink.Daemon.Equivalence
import LanLink.Daemon.Machine
import LanLink.Daemon.Ownership
import LanLink.Daemon.Replay
import LanLink.Daemon.TcpLocks
import LanLink.Session.Nonces
import LanLink.Session.Transparency
import LanLink.Exec.Output
import LanLink.Protocol.Acknowledgement
import LanLink.Core.Decimal
import LanLink.Core.Noninterference
import LanLink.Daemon.ExecIsolation
import LanLink.Daemon.FileIsolation
import LanLink.Daemon.Isolation
import LanLink.Exec.Kill
import LanLink.Session.Push
import LanLink.Storage.Metadata
import LanLink.Storage.Timestamp
import LanLink.Storage.Version
import LanLink.Core.Bits
import LanLink.Core.Guards
import LanLink.Core.Json
import LanLink.Core.Maps
import LanLink.Core.Records
import LanLink.Registry.ElectionControl
import LanLink.Storage.Download
import LanLink.Storage.DownloadCompletion
import LanLink.Storage.DownloadLoad
import LanLink.Storage.Gc
import LanLink.Storage.Incremental
import LanLink.Storage.IncrementalUpload
import LanLink.Storage.VersionLocks
import LanLink.Vpn.Dht
import LanLink.Vpn.DhtMessages
import LanLink.Vpn.DhtNearest
import LanLink.Vpn.DhtTable
import LanLink.Vpn.FailedHops
import LanLink.Core.Hex
import LanLink.Registry.Center
import LanLink.Registry.CenterConsistency
import LanLink.Registry.CenterFile
import LanLink.Registry.CenterInterleaving
import LanLink.Vpn.Codecs
import LanLink.Vpn.ConnectionPool
import LanLink.Vpn.HandshakeFreshness
import LanLink.Vpn.LanRouter
import LanLink.Vpn.Multipath
import LanLink.Vpn.MultipathDelivery
import LanLink.Vpn.RecoveryEvidence
import LanLink.Core.Contests
import LanLink.Storage.DiffPaths
import LanLink.Storage.DownloadReorder
import LanLink.Storage.IncrementalDownload
import LanLink.Storage.MetadataMerge
import LanLink.Storage.MetadataQuiescence
import LanLink.Storage.VersionRetention
import LanLink.Vpn.ParserSafety
import LanLink.Registry.ElectionHistory
import LanLink.Registry.ElectionMajority
import LanLink.Registry.ElectionStale
import LanLink.Storage.DownloadAtomicity
import LanLink.Storage.MetadataBlocks
import LanLink.Vpn.BucketRecency
import LanLink.Vpn.DhtSearch
import LanLink.Vpn.DhtValues
import LanLink.Vpn.Heartbeat
import LanLink.Vpn.MultipathSkip
import LanLink.Vpn.MultipathPaths
import LanLink.Vpn.MultipathSplit
import LanLink.Vpn.RecoveryTiming
import LanLink.Vpn.RouteCoherence
import LanLink.Vpn.RouteFailover
import LanLink.Vpn.RouteInvalidation
import LanLink.Core.Serial
import LanLink.Core.Sliding
import LanLink.Daemon.ChunkRepeats
import LanLink.Daemon.RateLimits
import LanLink.Daemon.RateWindows
import LanLink.Protocol.ReceiveBuffer
import LanLink.Protocol.SendWindow
import LanLink.Protocol.SequenceWrap
import LanLink.Session.LostAck
import LanLink.Vpn.ClosedSessions
import LanLink.Vpn.Command
import LanLink.Vpn.PoolAccounting
import LanLink.Core.Gregorian
import LanLink.Storage.Calendar
import LanLink.Storage.MetadataClock
import LanLink.Vpn.AddressCache
import LanLink.Vpn.AddressGrammar
import LanLink.Vpn.Splitters
import LanLink.Vpn.XorMetrics
import LanLink.Storage.Encrypt
import LanLink.Vpn.Backup
import LanLink.Vpn.HandshakeNetwork
import LanLink.Vpn.HolePunch
import LanLink.Session.Pull
import LanLink.Vpn.VpnRouter
import LanLink.Vpn.FailureDetector
import LanLink.Session.RemoteExec
import LanLink.Core.LineEditor
import LanLink.Ctl.Tui
import LanLink.Core.StableSort
import LanLink.Daemon.NativeText
import LanLink.Registry.RegistryProtocol
import LanLink.Session.PskFile
import LanLink.Vpn.Bootstrap
import LanLink.Vpn.HealRestart
import LanLink.Exec.Pipes
import LanLink.Exec.PipesReturn
