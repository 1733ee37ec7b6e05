import NoisyShuttle.Session.Frame
import NoisyShuttle.Session.Lifecycle

/-!
# Capability negotiation

The protocol version is a parameter; the code has `PROTOCOL_VERSION`.
-/

namespace NoisyShuttle.Session
open Tunnel (IoError)

abbrev Capabilities := UInt16

def capReuse : Capabilities := 0x0001
def capKeepalive : Capabilities := 0x0002

def Capabilities.reuse (caps : Capabilities) : Bool := caps &&& capReuse ≠ 0

def Capabilities.keepalive (caps : Capabilities) : Bool := caps &&& capKeepalive ≠ 0

def Capabilities.intersect (caps other : Capabilities) : Capabilities := caps &&& other

structure NegotiatedCapabilities where
  reuse : Bool
  keepalive : Bool
  serverVersion : UInt8
  deriving DecidableEq

def NegotiatedCapabilities.fromIntersect (client server : Capabilities) (version : UInt8) : NegotiatedCapabilities :=
  let shared := client.intersect server
  ⟨shared.reuse, shared.keepalive, version⟩

inductive NegotiationError where
  | serverRejected (reason : UInt8)
  | versionMismatch (client server : UInt8)
  | noResponse
  | unexpectedFrame
  | io (err : IoError)
  deriving DecidableEq

def NegotiationError.ofFrameError : FrameError → NegotiationError
  | .io err => .io err
  | .unexpectedEof => .noResponse
  | other => .io ⟨.invalidData, other.display⟩

def readWithTimeout : Option (Except FrameError Frame) → Except NegotiationError Frame
  | some result => result.mapError NegotiationError.ofFrameError
  | none => .error .noResponse

def clientAcceptsServerVersion (version serverVersion : UInt8) : Bool := serverVersion ≥ version

def clientHello (version : UInt8) (caps : Capabilities) : Frame := .clientHello version caps

def negotiateClient (version : UInt8) (caps : Capabilities) (reply : Option (Except FrameError Frame)) :
    Except NegotiationError NegotiatedCapabilities :=
  match readWithTimeout reply with
  | .error err => .error err
  | .ok (.clientHello serverVersion serverCaps) =>
    if clientAcceptsServerVersion version serverVersion then .ok (.fromIntersect caps serverCaps serverVersion)
    else .error (.versionMismatch version serverVersion)
  | .ok (.close reason) => .error (.serverRejected reason)
  | .ok _ => .error .noResponse

def serverAcceptsClientVersion (version clientVersion : UInt8) : Bool := clientVersion ≤ version

/-- The frame the server writes, if any, and its result. -/
def negotiateServer (version : UInt8) (caps : Capabilities) (request : Option (Except FrameError Frame)) :
    Option Frame × Except NegotiationError NegotiatedCapabilities :=
  match readWithTimeout request with
  | .error err => (none, .error err)
  | .ok (.clientHello clientVersion clientCaps) =>
    if serverAcceptsClientVersion version clientVersion then
      (some (.clientHello version caps), .ok (.fromIntersect clientCaps caps version))
    else (some (.close CloseReason.versionMismatch.discriminant), .error (.versionMismatch clientVersion version))
  | .ok _ => (none, .error .unexpectedFrame)

end NoisyShuttle.Session
