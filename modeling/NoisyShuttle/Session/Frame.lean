import NoisyShuttle.Tunnel.Tls

/-!
# Frames of reusable sessions

A frame is its type, the big-endian length of its payload and the payload. `read_frame` is modelled
as a future: what it has read so far is in it and nowhere else.
-/

namespace NoisyShuttle.Session
open Tunnel (IoError earlyEof)

def frameClientHello : UInt8 := 0x01
def frameOpenRequest : UInt8 := 0x02
def frameData : UInt8 := 0x03
def frameEndRequest : UInt8 := 0x04
def frameReset : UInt8 := 0x05
def framePing : UInt8 := 0x06
def framePong : UInt8 := 0x07
def frameClose : UInt8 := 0x08
def maxFramePayload : Nat := 65535
def protocolVersion : UInt8 := 1

inductive FrameError where
  | unknownFrameType (frameType : UInt8)
  | oversizedPayload (len : Nat)
  | unexpectedEof
  | invalidPayload (message : String)
  | io (err : IoError)
  deriving DecidableEq

def FrameError.display : FrameError → String
  | .unknownFrameType frameType => "unknown frame type: " ++ toString frameType
  | .oversizedPayload len => "oversized payload: " ++ toString len ++ " bytes"
  | .unexpectedEof => "unexpected end of input"
  | .invalidPayload message => "invalid payload: " ++ message
  | .io err => "I/O error: " ++ err.message

inductive Frame where
  | clientHello (version : UInt8) (capabilities : UInt16)
  | openRequest (cmd atyp : UInt8) (addr : Bytes) (port : UInt16)
  | data (bytes : Bytes)
  | endRequest (reason : UInt8)
  | reset (reason : UInt8)
  | ping (token : UInt32)
  | pong (token : UInt32)
  | close (reason : UInt8)
  deriving DecidableEq

namespace Frame

def payload : Frame → UInt8 × Bytes
  | .clientHello version capabilities => (frameClientHello, version :: be16 capabilities.toNat)
  | .openRequest cmd atyp addr port => (frameOpenRequest, cmd :: atyp :: (addr ++ be16 port.toNat))
  | .data bytes => (frameData, bytes)
  | .endRequest reason => (frameEndRequest, [reason])
  | .reset reason => (frameReset, [reason])
  | .ping token => (framePing, be32 token.toNat)
  | .pong token => (framePong, be32 token.toNat)
  | .close reason => (frameClose, [reason])

def encode (frame : Frame) : Except FrameError Bytes :=
  -- `encode` panics when the length does not fit in 16 bits
  let (frameType, payload) := frame.payload
  if payload.length ≤ maxFramePayload then .ok (frameType :: be16 payload.length ++ payload)
  else .error (.oversizedPayload payload.length)

def requireLen (payload : Bytes) (expected : Nat) (frameName : String) : Except FrameError Unit :=
  if payload.length = expected then .ok ()
  else .error (.invalidPayload (frameName ++ " payload must be " ++ toString expected ++ " bytes, got " ++
    toString payload.length))

def reasonOf (payload : Bytes) (frameName : String) (build : UInt8 → Frame) : Except FrameError Frame := do
  requireLen payload 1 frameName
  match payload with
  | [reason] => .ok (build reason)
  | _ => .error .unexpectedEof

def tokenOf (payload : Bytes) (frameName : String) (build : UInt32 → Frame) : Except FrameError Frame := do
  requireLen payload 4 frameName
  match payload with
  | [b₃, b₂, b₁, b₀] => .ok (build (UInt32.ofNat (ofBe32 b₃ b₂ b₁ b₀)))
  | _ => .error .unexpectedEof

def decodeOpenRequest (payload : Bytes) : Except FrameError Frame :=
  match payload, payload.reverse with
  | cmd :: atyp :: _ :: _ :: _, lo :: hi :: _ =>
    .ok (.openRequest cmd atyp ((payload.drop 2).take (payload.length - 4)) (UInt16.ofNat (ofBe16 hi lo)))
  | _, _ => .error (.invalidPayload "open request payload too short")

def decodePayload (frameType : UInt8) (payload : Bytes) : Except FrameError Frame :=
  if frameType = frameClientHello then do
    requireLen payload 3 "client hello"
    match payload with
    | [version, hi, lo] => .ok (.clientHello version (UInt16.ofNat (ofBe16 hi lo)))
    | _ => .error .unexpectedEof
  else if frameType = frameOpenRequest then decodeOpenRequest payload
  else if frameType = frameData then .ok (.data payload)
  else if frameType = frameEndRequest then reasonOf payload "end request" .endRequest
  else if frameType = frameReset then reasonOf payload "reset" .reset
  else if frameType = framePing then tokenOf payload "ping" .ping
  else if frameType = framePong then tokenOf payload "pong" .pong
  else if frameType = frameClose then reasonOf payload "close" .close
  else .error (.unknownFrameType frameType)

def decode : Bytes → Except FrameError Frame
  | frameType :: hi :: lo :: rest =>
    match readExact (ofBe16 hi lo) rest with
    | some (payload, _) => decodePayload frameType payload
    | none => .error .unexpectedEof
  | _ => .error .unexpectedEof

end Frame

/-- Where a `read_frame` future stands when all available bytes are read: it waits for more and
holds what it has read, or it is done and the rest of the bytes are still in the stream. -/
inductive FramePoll where
  | pending (taken : Bytes)
  | ready (result : Except FrameError Frame) (rest : Bytes)
  deriving DecidableEq

/-- A future that has read `taken` is polled with `avail` in the stream. -/
def pollFrame (taken avail : Bytes) : FramePoll :=
  match taken ++ avail with
  | frameType :: hi :: lo :: more =>
    match readExact (ofBe16 hi lo) more with
    | some (payload, rest) => .ready (Frame.decode (frameType :: hi :: lo :: payload)) rest
    | none => .pending (taken ++ avail)
  | _ => .pending (taken ++ avail)

def readFrame (stream : Bytes) : Except FrameError Frame × Bytes :=
  match pollFrame [] stream with
  | .ready result rest => (result, rest)
  | .pending _ => (.error (.io earlyEof), [])

namespace Frame

/-- The frames `encode` does not panic on. -/
def Sized (frame : Frame) : Prop := frame.payload.2.length ≤ maxFramePayload

instance (frame : Frame) : Decidable frame.Sized := inferInstanceAs (Decidable (_ ≤ _))

def bytes (frame : Frame) : Bytes := frame.payload.1 :: be16 frame.payload.2.length ++ frame.payload.2

theorem encode_sized {frame : Frame} (sized : frame.Sized) : frame.encode = .ok frame.bytes := if_pos sized

theorem decodeOpenRequest_payload (cmd atyp : UInt8) (addr : Bytes) (port : UInt16) :
    decodeOpenRequest (cmd :: atyp :: (addr ++ be16 port.toNat)) = .ok (.openRequest cmd atyp addr port) := by
  have split : ∃ x y rest, addr ++ be16 port.toNat = x :: y :: rest := by
    rcases addr with _ | ⟨x, _ | ⟨y, rest⟩⟩
    · exact ⟨_, _, _, rfl⟩
    · exact ⟨_, _, _, rfl⟩
    · exact ⟨_, _, _, rfl⟩
  obtain ⟨x, y, rest, whole⟩ := split
  have tail : (cmd :: atyp :: (addr ++ be16 port.toNat)).reverse =
      UInt8.ofNat port.toNat :: UInt8.ofNat (port.toNat / 256) :: (cmd :: atyp :: addr).reverse := by
    simp [be16]
  have narrow := ofBe16_be16 port.toNat_lt
  unfold decodeOpenRequest
  rw [tail]
  simp only [whole, narrow]
  rw [← whole]
  simp

theorem decodePayload_payload (frame : Frame) : decodePayload frame.payload.1 frame.payload.2 = .ok frame := by
  have token (t : UInt32) : UInt32.ofNat (ofBe32 (UInt8.ofNat (t.toNat / 16777216)) (UInt8.ofNat (t.toNat / 65536))
      (UInt8.ofNat (t.toNat / 256)) (UInt8.ofNat t.toNat)) = t := by
    rw [ofBe32_be32 t.toNat_lt, UInt32.ofNat_toNat]
  cases frame with
  | clientHello version capabilities =>
    show Except.ok (clientHello version (UInt16.ofNat (ofBe16 _ _))) = _
    rw [ofBe16_be16 capabilities.toNat_lt, UInt16.ofNat_toNat]
  | openRequest cmd atyp addr port => exact decodeOpenRequest_payload cmd atyp addr port
  | data bytes => rfl
  | endRequest reason => rfl
  | reset reason => rfl
  | ping t => exact congrArg (fun t => Except.ok (ping t)) (token t)
  | pong t => exact congrArg (fun t => Except.ok (pong t)) (token t)
  | close reason => rfl

theorem decode_bytes {frame : Frame} (sized : frame.Sized) : decode frame.bytes = .ok frame := by
  have narrow : frame.payload.2.length < 65536 := Nat.lt_succ_of_le sized
  have whole := readExact_append frame.payload.2 []
  rw [List.append_nil] at whole
  simp only [bytes, be16, List.cons_append, List.nil_append, decode, ofBe16_be16 narrow, whole]
  exact decodePayload_payload frame

end Frame

/-- Once the bytes of a frame are there, the future returns it and leaves what follows. -/
theorem pollFrame_ready {frame : Frame} (sized : frame.Sized) {taken avail rest : Bytes}
    (h : taken ++ avail = frame.bytes ++ rest) : pollFrame taken avail = .ready (.ok frame) rest := by
  have narrow : frame.payload.2.length < 65536 := Nat.lt_succ_of_le sized
  have decoded := Frame.decode_bytes sized
  simp only [Frame.bytes, be16, List.cons_append, List.nil_append] at h decoded
  simp only [pollFrame, h, ofBe16_be16 narrow, readExact_append, decoded]

theorem pollFrame_pending {frame : Frame} (sized : frame.Sized) {taken avail missing : Bytes}
    (some : missing ≠ []) (h : frame.bytes = taken ++ avail ++ missing) :
    pollFrame taken avail = .pending (taken ++ avail) := by
  have narrow : frame.payload.2.length < 65536 := Nat.lt_succ_of_le sized
  unfold pollFrame
  generalize taken ++ avail = read at h ⊢
  rcases read with _ | ⟨frameType, _ | ⟨hi, _ | ⟨lo, more⟩⟩⟩
  · rfl
  · rfl
  · rfl
  · simp only [Frame.bytes, be16, List.cons_append, List.nil_append, List.cons.injEq] at h
    obtain ⟨rfl, rfl, rfl, payload⟩ := h
    have short : readExact (frame.payload.2).length more = none := by
      have := List.length_pos_iff.mpr some
      rw [payload, readExact, if_neg]
      rw [List.length_append]
      omega
    simp only [ofBe16_be16 narrow, short]

theorem readFrame_bytes {frame : Frame} (sized : frame.Sized) (rest : Bytes) :
    readFrame (frame.bytes ++ rest) = (.ok frame, rest) := by
  rw [readFrame, pollFrame_ready sized (List.nil_append _)]

theorem readFrame_ok {stream rest : Bytes} {frame : Frame} (h : readFrame stream = (.ok frame, rest)) :
    ∃ frameType hi lo payload, stream = frameType :: hi :: lo :: (payload ++ rest) ∧
      Frame.decodePayload frameType payload = .ok frame := by
  rcases stream with _ | ⟨frameType, _ | ⟨hi, _ | ⟨lo, more⟩⟩⟩
  · cases h
  · cases h
  · cases h
  · simp only [readFrame, pollFrame, List.nil_append] at h
    cases took : readExact (ofBe16 hi lo) more with
    | none =>
      rw [took] at h
      cases h
    | some read =>
      obtain ⟨payload, left⟩ := read
      obtain ⟨split, length⟩ := readExact_eq_some.mp took
      have again := readExact_append payload []
      rw [length, List.append_nil] at again
      simp only [took, Frame.decode, again, Prod.mk.injEq] at h
      obtain ⟨decoded, rfl⟩ := h
      exact ⟨frameType, hi, lo, payload, by rw [split], decoded⟩

/-- Polling inside a sequence of frames: the next frame, or a part of it. -/
theorem pollFrame_frames {frames : List Frame} (sized : ∀ f ∈ frames, f.Sized) {taken avail coming : Bytes}
    (h : taken ++ avail ++ coming = (frames.map Frame.bytes).flatten) :
    pollFrame taken avail = .pending (taken ++ avail) ∨
    ∃ frame rest left, frames = frame :: rest ∧ pollFrame taken avail = .ready (.ok frame) left ∧
      left ++ coming = (rest.map Frame.bytes).flatten := by
  cases frames with
  | nil =>
    rw [List.map_nil, List.flatten_nil] at h
    have none := (List.append_eq_nil_iff.mp h).1
    left
    simp [pollFrame, none]
  | cons frame rest =>
    obtain ⟨first, -⟩ := List.forall_mem_cons.mp sized
    rw [List.map_cons, List.flatten_cons] at h
    rcases List.append_eq_append_iff.mp h with ⟨missing, whole, after⟩ | ⟨left, whole, after⟩
    · by_cases some : missing = []
      · subst some
        rw [List.append_nil] at whole
        exact .inr ⟨frame, rest, [], rfl, pollFrame_ready first (by rw [List.append_nil, whole]), after⟩
      · exact .inl (pollFrame_pending first some whole)
    · exact .inr ⟨frame, rest, left, rfl, pollFrame_ready first whole, after.symm⟩

end NoisyShuttle.Session
