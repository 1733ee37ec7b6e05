import NoisyShuttle.Lib.Buffer
import NoisyShuttle.Lib.Bytes
import NoisyShuttle.Lib.Codec
import NoisyShuttle.Lib.Conduit
import NoisyShuttle.Lib.Line
import NoisyShuttle.Lib.Lru
import NoisyShuttle.Lib.Output
import NoisyShuttle.Lib.RawVec
import NoisyShuttle.Lib.Run
import NoisyShuttle.Lib.Text
import NoisyShuttle.Session.Exchange
import NoisyShuttle.Session.Format
import NoisyShuttle.Session.Frame
import NoisyShuttle.Session.Lifecycle
import NoisyShuttle.Session.Negotiate
import NoisyShuttle.Session.Write
import NoisyShuttle.Shuttle.Accounting
import NoisyShuttle.Shuttle.Backpressure
import NoisyShuttle.Shuttle.Boundaries
import NoisyShuttle.Shuttle.Checkout
import NoisyShuttle.Shuttle.Conformance
import NoisyShuttle.Shuttle.Connection
import NoisyShuttle.Shuttle.Copy
import NoisyShuttle.Shuttle.Datagram
import NoisyShuttle.Shuttle.Delivery
import NoisyShuttle.Shuttle.Dispatch
import NoisyShuttle.Shuttle.Drain
import NoisyShuttle.Shuttle.Fallback
import NoisyShuttle.Shuttle.FirstPacket
import NoisyShuttle.Shuttle.Header
import NoisyShuttle.Shuttle.Http
import NoisyShuttle.Shuttle.Idle
import NoisyShuttle.Shuttle.Isolation
import NoisyShuttle.Shuttle.Limits
import NoisyShuttle.Shuttle.Negotiation
import NoisyShuttle.Shuttle.OneShot
import NoisyShuttle.Shuttle.Output
import NoisyShuttle.Shuttle.Ownership
import NoisyShuttle.Shuttle.Pool
import NoisyShuttle.Shuttle.Preflight
import NoisyShuttle.Shuttle.Preflighter
import NoisyShuttle.Shuttle.Relay
import NoisyShuttle.Shuttle.Remote
import NoisyShuttle.Shuttle.Select
import NoisyShuttle.Shuttle.SessionLoop
import NoisyShuttle.Shuttle.Settled
import NoisyShuttle.Shuttle.Trojan
import NoisyShuttle.Shuttle.Turn
import NoisyShuttle.Shuttle.Udp
import NoisyShuttle.Shuttle.UdpServer
import NoisyShuttle.Shuttle.Url
import NoisyShuttle.Shuttle.Wire
import NoisyShuttle.Tunnel.Alpn
import NoisyShuttle.Tunnel.Authentic
import NoisyShuttle.Tunnel.Client
import NoisyShuttle.Tunnel.Duplex
import NoisyShuttle.Tunnel.Entries
import NoisyShuttle.Tunnel.Establish
import NoisyShuttle.Tunnel.Fingerprint
import NoisyShuttle.Tunnel.Handover
import NoisyShuttle.Tunnel.Handshake
import NoisyShuttle.Tunnel.Integrity
import NoisyShuttle.Tunnel.KeyShares
import NoisyShuttle.Tunnel.Layout
import NoisyShuttle.Tunnel.RecordBuffer
import NoisyShuttle.Tunnel.Replay
import NoisyShuttle.Tunnel.Server
import NoisyShuttle.Tunnel.Shutdown
import NoisyShuttle.Tunnel.Stream
import NoisyShuttle.Tunnel.Tls
import NoisyShuttle.Tunnel.Totp
