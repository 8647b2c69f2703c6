import ProximityMesh.Core.NodeIdText
import ProximityMesh.Protocol.WireCodec
import ProximityMesh.Transport.Registry
import ProximityMesh.Gateway.PortReuse
import ProximityMesh.Gateway.Atomicity
import ProximityMesh.Gateway.ZeroChecksum
import ProximityMesh.Routing.Triggered
import ProximityMesh.Daemon.RpcGate
import ProximityMesh.Daemon.EchoReply
import ProximityMesh.Daemon.Trust
import ProximityMesh.Daemon.KeyConfirmation
import ProximityMesh.Daemon.RoleSeparation
import ProximityMesh.Daemon.Reflection
import ProximityMesh.Daemon.Departure
import ProximityMesh.Daemon.Advertising
import ProximityMesh.Daemon.PeerHandlers
import ProximityMesh.Daemon.RelayPrivacy
import ProximityMesh.Transport.Pipe
import ProximityMesh.Daemon.Dispatch
import ProximityMesh.Daemon.Reconnection
import ProximityMesh.Daemon.ReturnPath
import ProximityMesh.Daemon.PinnedKeys
import ProximityMesh.Daemon.Contention
import ProximityMesh.Daemon.ReconnectSlots
import ProximityMesh.Messaging.Unread
import ProximityMesh.Messaging.DeliveryStatus
import ProximityMesh.Daemon.Reputation
import ProximityMesh.Daemon.RateLimit
import ProximityMesh.Routing.SplitHorizon
import ProximityMesh.Messaging.History
import ProximityMesh.Bluetooth.Sessions
import ProximityMesh.Daemon.RelayPath
