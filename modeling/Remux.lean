import Remux.Rpc.Capacity
import Remux.Rpc.Jobs
import Remux.Fs.DirectoryCache
import Remux.Fs.FileWindow
import Remux.Maintenance.Gates
import Remux.ExtensionRpc.Peer
import Remux.Codex.ItemIdentity
import Remux.Delivery.Staging
import Remux.Delivery.Queue
import Remux.Journal.Quiescence
import Remux.Coordinator.Sessions
import Remux.Coordinator.Compactions
import Remux.Delivery.Recovery
import Remux.Viewer.Resources
import Remux.Viewer.ResourceRefresh
import Remux.ViewerKit.Ipc
import Remux.Terminal.Output
import Remux.Viewer.TranscriptSync
import Remux.Viewer.Submissions
import Remux.Viewer.InputSections
import Remux.Coordinator.Federation
import Remux.Compute.Frames
import Remux.Extensions.RunState
import Remux.Extensions.Rpc
import Remux.Extensions.Supervisor
import Remux.Terminal.Processes
import Remux.Terminal.InputQueue
import Remux.Extensions.Bundles
import Remux.Rpc.Retention
import Remux.Rpc.LaneKeys
import Remux.Extensions.Gateways
import Remux.Providers.CodexCompactions
import Remux.Providers.CodexBlocks
import Remux.Providers.ClaudeMessages
import Remux.Extensions.Snapshots
import Remux.Notifications.Keys
import Remux.Notifications.Tokens
import Remux.Rpc.Barrier
import Remux.Fs.GitIndex
import Remux.Fs.FileLines
import Remux.Fs.Uploads
import Remux.Fs.RelayTasks
import Remux.Fs.NaturalOrder
import Remux.Fs.Paths
import Remux.Codex.Submissions
import Remux.Codex.StreamedText
import Remux.Delivery.Evidence
import Remux.Coordinator.QueuePause
import Remux.Coordinator.QueueDispatch
import Remux.Coordinator.HistoryWaiters
import Remux.Journal.TranscriptWindow
