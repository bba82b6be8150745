import DeviceBuilder.Lib.Runs
import DeviceBuilder.Lib.KeyList
import DeviceBuilder.Models.Firmware
import DeviceBuilder.Helpers.VersionCompat
import DeviceBuilder.Helpers.BuildScheduler
import DeviceBuilder.Firmware.State
import DeviceBuilder.Firmware.World
import DeviceBuilder.Firmware.Prune
import DeviceBuilder.Firmware.Jobs
import DeviceBuilder.Firmware.Factories
import DeviceBuilder.Firmware.RenameFlow
import DeviceBuilder.Firmware.Lifecycle
import DeviceBuilder.Firmware.RemoteRunner
import DeviceBuilder.Firmware.Runner
import DeviceBuilder.Firmware.RemoteDispatch
import DeviceBuilder.Firmware.Controller
import DeviceBuilder.Firmware.Offloader
import DeviceBuilder.Firmware.Persistence
import DeviceBuilder.Firmware.Step
import DeviceBuilder.Lib.Chain
import DeviceBuilder.Queue.Abstraction
import DeviceBuilder.Queue.CancelMoves
import DeviceBuilder.Queue.FinalizeMoves
import DeviceBuilder.Queue.CommandMoves
import DeviceBuilder.Queue.DispatchMoves
import DeviceBuilder.Queue.StepMoves
import DeviceBuilder.Properties.Pool
import DeviceBuilder.Properties.ExactRequired
import DeviceBuilder.Properties.History
import DeviceBuilder.Properties.Wipes
import DeviceBuilder.Lib.Dict
import DeviceBuilder.Models.RemoteBuild
import DeviceBuilder.Properties.Trust
import DeviceBuilder.Properties.WindowClose
import DeviceBuilder.Properties.Sessions
import DeviceBuilder.Properties.Uploads
import DeviceBuilder.Properties.Revocation
import DeviceBuilder.Properties.Running
import DeviceBuilder.Properties.Terminal
import DeviceBuilder.Properties.Clients
import DeviceBuilder.Queue.GateMoves
import DeviceBuilder.Properties.Storage
import DeviceBuilder.Properties.Listener
import DeviceBuilder.Properties.Tokens
import DeviceBuilder.RemoteBuild.PeerLinks
import DeviceBuilder.Properties.PeerLinks
import DeviceBuilder.Properties.PairingStores
import DeviceBuilder.Properties.Rebind
import DeviceBuilder.Properties.Rescan
import DeviceBuilder.Properties.Scanner
import DeviceBuilder.Lib.VersionedStore
import DeviceBuilder.Devices.Scanner
import DeviceBuilder.Lib.Interleaved
import DeviceBuilder.Properties.Cleanup
import DeviceBuilder.Devices.DeviceIndex
import DeviceBuilder.Properties.ScanEvents
import DeviceBuilder.Properties.IdentityGate
import DeviceBuilder.Properties.MdnsOwnership
import DeviceBuilder.Properties.YamlEdits
import DeviceBuilder.Properties.PendingKeys
import DeviceBuilder.Devices.StorageRegen
import DeviceBuilder.Properties.StorageRegen
import DeviceBuilder.Properties.RenameMetadata
import DeviceBuilder.Properties.Labels
import DeviceBuilder.Properties.VersionHistory
import DeviceBuilder.Properties.Chains
import DeviceBuilder.Properties.Faults
import DeviceBuilder.Properties.Streams
import DeviceBuilder.Properties.FileCommands
import DeviceBuilder.Properties.ApiReviver
import DeviceBuilder.Lib.Lines
import DeviceBuilder.Lib.Patterns
import DeviceBuilder.Helpers.YamlLines
import DeviceBuilder.Helpers.InlineHandlers
import DeviceBuilder.Helpers.YamlMapping
import DeviceBuilder.Properties.HandlerKeys
import DeviceBuilder.Properties.LineContents
import DeviceBuilder.Properties.LineEdits
import DeviceBuilder.Properties.FieldPaths
import DeviceBuilder.Properties.HandlerBlocks
import DeviceBuilder.Properties.UpsertedText
import DeviceBuilder.Properties.HandlerUpserts
import DeviceBuilder.Properties.HandlerRemovals
import DeviceBuilder.Properties.HandlerEdits
import DeviceBuilder.Lib.DictOrder
import DeviceBuilder.RemoteBuild.FrameFanout
import DeviceBuilder.RemoteBuild.Broadcasts
import DeviceBuilder.RemoteBuild.JobFrames
import DeviceBuilder.Properties.FrameOrder
import DeviceBuilder.Lib.SlidingWindow
import DeviceBuilder.Lib.OrderedDict
import DeviceBuilder.Properties.DispatchTarget
import DeviceBuilder.Helpers.RateLimiter
import DeviceBuilder.Properties.LoginAttempts
import DeviceBuilder.Helpers.LazyCatalog
import DeviceBuilder.Properties.LazyCatalog
import DeviceBuilder.Helpers.PresenceGatedLoop
import DeviceBuilder.Properties.PresenceLoop
import DeviceBuilder.Devices.WakeWorker
import DeviceBuilder.Properties.WakeWorker
import DeviceBuilder.Helpers.YamlScalar
import DeviceBuilder.Properties.ScalarLens
import DeviceBuilder.Properties.LeafWalk
import DeviceBuilder.Helpers.TopBlock
import DeviceBuilder.Properties.TopBlock
import DeviceBuilder.Helpers.Subprocess
import DeviceBuilder.Properties.LineChunks
import DeviceBuilder.Properties.BundleAssembler
import DeviceBuilder.Lib.Numerals
import DeviceBuilder.Firmware.JobOutput
import DeviceBuilder.Properties.JobOutput
import DeviceBuilder.Properties.OutputSidecar
import DeviceBuilder.Helpers.MacAddresses
import DeviceBuilder.Properties.MacAddresses
import DeviceBuilder.Properties.Rerouting
import DeviceBuilder.Properties.BuildGate
import DeviceBuilder.Properties.GateStacks
import DeviceBuilder.Properties.GateSteps
import DeviceBuilder.RemoteBuild.ArtifactsDownload
import DeviceBuilder.Properties.ArtifactsDownload
import DeviceBuilder.Properties.DownloadRuns
import DeviceBuilder.Properties.DownloadAnswers
import DeviceBuilder.Lib.Election
import DeviceBuilder.Devices.MqttCoordinator
import DeviceBuilder.Properties.MqttCoordinator
import DeviceBuilder.Properties.MqttRestarts
