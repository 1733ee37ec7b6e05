import NoisyShuttle.Session.Lifecycle
import NoisyShuttle.Session.Negotiate

/-!
# The two framed relays

`relay_tcp_frames` of the client and `relay_framed_tcp` of the server are loops over a `select!`.
Each branch is a function of the loop's variables and of what the branch was woken with; what it
then writes and where the loop goes on is a `Branch`.
-/

namespace NoisyShuttle.Shuttle
open Session
open Tunnel (IoError)

inductive RelayError where
  | frame (err : FrameError)
  | io (context : String) (err : IoError)
  | code (text : String) (value : UInt8)
  | negotiation (text : String) (result : Except NegotiationError NegotiatedCapabilities)
  | unexpected (text : String) (frame : Frame)
  | message (text : String)
  deriving DecidableEq

/-- What a branch body does: a write of a frame to the session, or of data to the plain side, each
followed by the next iteration unless it fails; a half-close; nothing; or the end of the loop. -/
inductive Branch (σ : Type) where
  | send (frame : Frame) (next : σ)
  | deliver (bytes : Bytes) (next : σ)
  | halfClose (next : σ)
  | proceed (next : σ)
  | finish (result : Except RelayError (Nat × Nat))

/-- What the branch gives to the plain side. -/
def Branch.delivered {σ : Type} : Branch σ → Bytes
  | .deliver bytes _ => bytes
  | _ => []

/-! ## The client -/

structure ClientRelay where
  clientClosed : Bool
  tx : Nat
  rx : Nat
  deriving DecidableEq

namespace ClientRelay

def inboundRead (s : ClientRelay) : Except IoError Bytes → Branch ClientRelay
  -- `read = inbound_r.read(..), if !client_closed`; no bytes are the end of the stream
  | .error err => .finish (.error (.io "failed to read inbound client data" err))
  | .ok [] => .send (.endRequest CloseReason.clientClose.discriminant) { s with clientClosed := true }
  | .ok bytes => .send (.data bytes) { s with tx := s.tx + bytes.length }

def frameRead (s : ClientRelay) : Except FrameError Frame → Branch ClientRelay
  -- `frame = read_frame(&mut session_r)`
  | .error err => .finish (.error (.frame err))
  | .ok (.data bytes) => .deliver bytes { s with rx := s.rx + bytes.length }
  | .ok (.endRequest _) => .finish (.ok (s.tx, s.rx))
  | .ok (.reset reason) => .finish (.error (.code "reusable request reset by server: " reason))
  | .ok (.close reason) => .finish (.error (.code "reusable session closed by server: " reason))
  | .ok (.ping token) => .send (.pong token) s
  | .ok frame => .finish (.error (.unexpected "unexpected reusable relay frame: " frame))

end ClientRelay

/-! ## The server -/

def endRequestOk : UInt8 := 0x00

structure ServerRelay where
  clientEnded : Bool
  targetEnded : Bool
  draining : Bool
  tx : Nat
  rx : Nat
  deriving DecidableEq

namespace ServerRelay

/-- The variables before the loop; `shutdown` is what the watch channel holds. -/
def start (shutdown : Bool) : ServerRelay := ⟨false, false, shutdown, 0, 0⟩

def frameRead (s : ServerRelay) : Except FrameError Frame → Branch ServerRelay
  -- `frame = read_frame(&mut session_r), if !client_ended`
  | .error err => .finish (.error (.frame err))
  | .ok (.data bytes) => .deliver bytes { s with tx := s.tx + bytes.length }
  | .ok (.endRequest _) => .halfClose { s with clientEnded := true }
  | .ok (.reset reason) => .finish (.error (.code "client reset reusable request: " reason))
  | .ok (.ping token) => .send (.pong token) s
  | .ok frame => .finish (.error (.unexpected "unexpected reusable request frame: " frame))

def targetRead (s : ServerRelay) : Except IoError Bytes → Branch ServerRelay
  -- `read = outbound_r.read(&mut buf), if !target_ended`
  | .error err => .finish (.error (.io "failed to read target response" err))
  | .ok [] => .send (.endRequest endRequestOk) { s with targetEnded := true }
  | .ok bytes => .send (.data bytes) { s with rx := s.rx + bytes.length }

def shutdownChanged (s : ServerRelay) (shutdown : Bool) : Branch ServerRelay :=
  -- `_ = shutdown.changed(), if !draining`
  .proceed (if shutdown then { s with draining := true } else s)

def drainTimeout : Branch ServerRelay :=
  -- `_ = &mut drain_sleep, if draining`
  .finish (.error (.message "timed out draining reusable request during shutdown"))

def bothEnded (s : ServerRelay) : Bool := s.clientEnded && s.targetEnded

end ServerRelay
end NoisyShuttle.Shuttle
