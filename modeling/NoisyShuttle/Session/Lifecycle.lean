import NoisyShuttle.Lib.Bytes

/-!
# Session states and close reasons
-/

namespace NoisyShuttle.Session

inductive SessionState where
  | connecting | handshaking | idle | opening | active | draining | closing | closed | poisoned
  deriving DecidableEq, Repr

def SessionState.canTransitionTo : SessionState → SessionState → Bool
  | .connecting, .handshaking => true
  | .handshaking, .idle | .handshaking, .closed => true
  | .idle, .opening | .idle, .closing | .idle, .poisoned => true
  | .opening, .active | .opening, .poisoned => true
  | .active, .draining | .active, .poisoned => true
  | .draining, .idle | .draining, .closing | .draining, .poisoned => true
  | .closing, .closed => true
  | .poisoned, .closed => true
  | _, .poisoned | _, .closed => true
  | _, _ => false

inductive CloseReason where
  | clientClose | clientInitiated | serverClose | serverError | idleTimeout | maxAgeExceeded
  | maxRequestsExceeded | maxRequestsReached | keepaliveTimeout | protocolError | versionMismatch
  | shutdownDrain | checkoutFailed | poisoned
  deriving DecidableEq, Repr

/-- `reason as u8`: the position of the variant. The client sends these. -/
def CloseReason.discriminant (reason : CloseReason) : UInt8 := UInt8.ofNat reason.ctorIdx

/-- The codes the server sends, which are not the discriminants. -/
def closeReasonCode : CloseReason → UInt8
  | .clientClose | .clientInitiated => 0x01
  | .serverClose | .serverError => 0x02
  | .idleTimeout => 0x03
  | .maxAgeExceeded => 0x04
  | .maxRequestsExceeded | .maxRequestsReached => 0x05
  | .keepaliveTimeout => 0x06
  | .protocolError => 0x07
  | .versionMismatch => 0x08
  | .shutdownDrain => 0x09
  | .checkoutFailed => 0x0a
  | .poisoned => 0x0b

end NoisyShuttle.Session
