import NoisyShuttle.Session.Frame
import NoisyShuttle.Shuttle.Trojan

/-!
# Dispatch of an accepted tunnel

`handle_connection` reads a Trojan-like request; when that fails with `InvalidData` it goes on to
read the first frame of a reusable session from what is left of the stream.
-/

namespace NoisyShuttle.Shuttle
open Session
open Tunnel (IoError)

variable {α : Type} (socks : Socks5 α)

inductive Dispatched (α : Type) where
  | oneShot (req : TrojanLikeRequest α) (stream : Bytes)
  | sessionLoop (firstFrame : Frame) (stream : Bytes)
  | badHello (context : String) (err : FrameError)
  | badHeader (context : String) (err : IoError)
  deriving DecidableEq

def dispatch (stream : Bytes) : Dispatched α :=
  match readTrojanLikeRequest socks stream with
  | (.ok req, rest) => .oneShot req rest
  | (.error err, rest) =>
    if err.kind = .invalidData then
      match readFrame rest with
      | (.ok frame, rest) => .sessionLoop frame rest
      | (.error err, _) => .badHello "failed to read reusable session hello" err
    else .badHeader "failed to read request header" err

/-- What a client of this repository opens a tunnel with. -/
inductive Opening (α : Type) where
  | clientHello (version : UInt8) (capabilities : UInt16)
  | request (req : TrojanLikeRequest α)

def Opening.encoded : Opening α → Bytes
  | .clientHello version capabilities => (Frame.clientHello version capabilities).bytes
  | .request req => req.encoded socks

/-- The server takes the opening for what it is, and the stream stands right after it. -/
def Opening.Recognised (opening : Opening α) (rest : Bytes) : Prop :=
  dispatch socks (opening.encoded socks ++ rest) =
    match opening with
    | .clientHello version capabilities => .sessionLoop (.clientHello version capabilities) rest
    | .request req => .oneShot req rest

theorem readFrame_data {tail rest : Bytes} {frame : Frame} (h : readFrame (frameData :: tail) = (.ok frame, rest)) :
    ∃ bytes, frame = .data bytes := by
  obtain ⟨frameType, hi, lo, payload, stream, decoded⟩ := readFrame_ok h
  obtain ⟨rfl, -⟩ := List.cons.inj stream
  exact ⟨payload, (Except.ok.inj decoded).symm⟩

/-- An address type that is none of RFC 1928 is an error, of any kind, and nothing after it is read. -/
structure AtypSocks5 (α : Type) extends Socks5 α where
  read_atyp : ∀ (atyp : UInt8) rest, atyp ≠ 0x01 → atyp ≠ 0x03 → atyp ≠ 0x04 →
    ∃ err, read (atyp :: rest) = (.error err, rest)

theorem readTrojanLikeRequest_clientHello (socks : AtypSocks5 α) (version : UInt8) (capabilities : UInt16)
    (rest : Bytes) :
    ∃ err tail, readTrojanLikeRequest socks.toSocks5 ((Frame.clientHello version capabilities).bytes ++ rest) =
      (.error err, frameData :: tail) := by
  obtain ⟨err, read⟩ := socks.read_atyp 0x00 (0x03 :: version :: (be16 capabilities.toNat ++ rest))
    (by decide) (by decide) (by decide)
  refine ⟨err, version :: (be16 capabilities.toNat ++ rest), ?_⟩
  have hello : (Frame.clientHello version capabilities).bytes ++ rest =
      0x01 :: 0x00 :: 0x03 :: version :: (be16 capabilities.toNat ++ rest) := by
    simp [Frame.bytes, Frame.payload, be16, frameClientHello]
  have connect : Cmd.fromU8 0x01 = some .connect := rfl
  rw [hello]
  simp only [readTrojanLikeRequest, connect, read]
  rfl

/-- A one-shot request is recognised, a ClientHello never, whatever the kind of the address reader's error: for
most kinds no frame is read at all, and for `InvalidData` the reader has taken the first two bytes by then. -/
theorem opening_recognised_iff (socks : AtypSocks5 α) (opening : Opening α) (rest : Bytes) :
    opening.Recognised socks.toSocks5 rest ↔ ∃ req, opening = .request req := by
  cases opening with
  | request req =>
    refine ⟨fun _ => ⟨req, rfl⟩, fun _ => ?_⟩
    show dispatch socks.toSocks5 (req.encoded socks.toSocks5 ++ rest) = _
    rw [dispatch, readTrojanLikeRequest_encoded]
  | clientHello version capabilities =>
    refine ⟨fun recognised => ?_, fun ⟨req, h⟩ => by cases h⟩
    obtain ⟨err, tail, read⟩ := readTrojanLikeRequest_clientHello socks version capabilities rest
    have dispatched : dispatch socks.toSocks5 ((Frame.clientHello version capabilities).bytes ++ rest) =
        .sessionLoop (.clientHello version capabilities) rest := recognised
    rw [dispatch, read] at dispatched
    dsimp only at dispatched
    split at dispatched
    · split at dispatched
      · next frame left framed =>
        obtain ⟨bytes, rfl⟩ := readFrame_data framed
        cases dispatched
      · cases dispatched
    · cases dispatched

def Addr.socks5Atyp : AtypSocks5 Addr where
  toSocks5 := Addr.socks5
  read_atyp atyp rest v4 domain v6 := by
    refine ⟨⟨.other, "invalid address type"⟩, ?_⟩
    show Addr.read (atyp :: rest) = _
    rw [Addr.read, if_neg v4, if_neg domain, if_neg v6]

/-- The client's hello: its length is taken for an address type, and the connection ends with that error. -/
theorem client_hello_unrecognised :
    dispatch Addr.socks5Atyp.toSocks5 (Frame.clientHello protocolVersion 0x0001).bytes =
      .badHeader "failed to read request header" ⟨.other, "invalid address type"⟩ ∧
    ¬ (Opening.clientHello protocolVersion 0x0001).Recognised Addr.socks5Atyp.toSocks5 [] := by
  have dispatched : dispatch Addr.socks5Atyp.toSocks5 (Frame.clientHello protocolVersion 0x0001).bytes =
      .badHeader "failed to read request header" ⟨.other, "invalid address type"⟩ := by decide +kernel
  refine ⟨dispatched, fun recognised => ?_⟩
  unfold Opening.Recognised at recognised
  rw [List.append_nil] at recognised
  cases dispatched.symm.trans recognised

end NoisyShuttle.Shuttle
