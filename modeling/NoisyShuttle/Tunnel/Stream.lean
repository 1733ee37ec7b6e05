import NoisyShuttle.Tunnel.Tls

/-!
# The encrypted stream

`SnowyStream` with its poll functions. The socket is the list of answers it gives to one call
(an exhausted list is `Pending`) and the bytes that have arrived on it; the Noise transport state
is its two nonces over the functions of `Noise`.
-/

namespace NoisyShuttle.Tunnel

inductive SnowyState where
  | stream | readShutdown | writeShutdown | fullyShutdown
  deriving DecidableEq, Repr

namespace SnowyState

def shutdownRead : SnowyState → SnowyState
  | .writeShutdown | .fullyShutdown => .fullyShutdown
  | _ => .readShutdown

def shutdownWrite : SnowyState → SnowyState
  | .readShutdown | .fullyShutdown => .fullyShutdown
  | _ => .writeShutdown

def writeable : SnowyState → Bool
  | .writeShutdown | .fullyShutdown => false
  | _ => true

def readable : SnowyState → Bool
  | .readShutdown | .fullyShutdown => false
  | _ => true

end SnowyState

/-- What `TransportState` computes at a given nonce; `none` is an error of snow. -/
structure Noise where
  writeMessage : Nat → Bytes → Option Bytes
  readMessage : Nat → Bytes → Option Bytes

/-- `pendingRead` is the filled part of `pending_read_buffer`. -/
structure SnowyStream where
  state : SnowyState
  sendNonce : Nat
  recvNonce : Nat
  pendingRead : Bytes
  readBuffer : RawVec UInt8
  readOffset : Nat
  writeBuffer : Bytes
  writeOffset : Nat

inductive Poll (α : Type) where
  | ready (result : Except IoError α)
  | pending
  | panicked

inductive WriteOutcome where
  | wrote (n : Nat)
  | failed (err : IoError)
  | pending
  deriving DecidableEq

/-- `arrived n` hands over up to `n + 1` of the bytes that are there. -/
inductive ReadOutcome where
  | arrived (n : Nat)
  | eof
  | failed (err : IoError)
  | pending
  deriving DecidableEq

def writeZero : IoError :=
  ⟨.writeZero, "Write zero byte to underlying socket when a TLS frame is half-written"⟩

def halfRead : IoError :=
  ⟨.unexpectedEof, "Underlaying socket reaches EoF when a TLS frame half-read"⟩

def invalidFrame : IoError := ⟨.invalidData, "Invalid TLS frame"⟩

def noiseFailed : IoError := ⟨.invalidData, "Noise failed to read message: decrypt error"⟩

def record (ciphertext : Bytes) : Bytes := [0x17, 0x03, 0x03] ++ be16 ciphertext.length ++ ciphertext

namespace SnowyStream

def new : SnowyStream := ⟨.stream, 0, 0, [], .empty, 0, [], 0⟩

def unsent (s : SnowyStream) : Bytes := s.writeBuffer.drop s.writeOffset

def bufferedPlaintext (s : SnowyStream) : Bytes := s.readBuffer.contents.drop s.readOffset

/-! ## Writing -/

inductive Drained where
  | drained | blocked
  | failed (err : IoError)

/-- A call in the middle of writing: how the loop over the socket ended, the stream, the bytes
handed to the socket and the answers the socket has left. -/
structure Pushed where
  exit : Drained
  stream : SnowyStream
  emitted : Bytes
  outcomes : List WriteOutcome

/-- The loop that cleans `write_buffer`. A write of no byte is an error in `poll_write`, and is
tried again in `poll_flush`. -/
def drainWriteBuffer (zeroFails : Bool) (s : SnowyStream) : List WriteOutcome → Pushed
  | [] => ⟨if s.writeOffset < s.writeBuffer.length then .blocked else .drained, s, [], []⟩
  | outcome :: rest =>
    if s.writeOffset < s.writeBuffer.length then
      match outcome with
      | .pending => ⟨.blocked, s, [], rest⟩
      | .failed err => ⟨.failed err, s, [], rest⟩
      | .wrote n =>
        let taken := s.unsent.take n
        if taken = [] ∧ zeroFails then
          ⟨.failed writeZero, { s with state := s.state.shutdownWrite }, [], rest⟩
        else
          let pushed := drainWriteBuffer zeroFails { s with writeOffset := s.writeOffset + taken.length } rest
          { pushed with emitted := taken ++ pushed.emitted }
    else ⟨.drained, s, [], outcome :: rest⟩

def clearWriteBuffer (s : SnowyStream) : SnowyStream := { s with writeBuffer := [], writeOffset := 0 }

/-- The loop of `poll_write` with `offset` bytes of the caller's buffer taken and `rest` to go: the
answer, the stream and the bytes handed to the socket. -/
def writeLoop (noise : Noise) (rest : Bytes) (offset : Nat) (s : SnowyStream) (outcomes : List WriteOutcome) :
    Poll Nat × SnowyStream × Bytes :=
  let pushed := s.drainWriteBuffer true outcomes
  match pushed.exit with
  | .failed err => (.ready (.error err), pushed.stream, pushed.emitted)
  | .blocked => (if offset = 0 then .pending else .ready (.ok offset), pushed.stream, pushed.emitted)
  | .drained =>
    let s := pushed.stream.clearWriteBuffer
    if _more : rest = [] then (.ready (.ok offset), s, pushed.emitted)
    else
      let chunk := rest.take maximumPlaintextLength
      match noise.writeMessage s.sendNonce chunk with
      | none => (.panicked, s, pushed.emitted)
      | some ciphertext =>
        let framed := { s with writeBuffer := record ciphertext, sendNonce := s.sendNonce + 1 }
        let (poll, s, emitted) :=
          writeLoop noise (rest.drop maximumPlaintextLength) (offset + chunk.length) framed pushed.outcomes
        (poll, s, pushed.emitted ++ emitted)
  termination_by rest.length
  decreasing_by
    have := List.length_pos_iff.mpr _more
    have : 0 < maximumPlaintextLength := by decide
    simp only [List.length_drop]
    omega

def pollWrite (noise : Noise) (s : SnowyStream) (buf : Bytes) (outcomes : List WriteOutcome) :
    Poll Nat × SnowyStream × Bytes :=
  if s.state.writeable then writeLoop noise buf 0 s outcomes else (.ready (.ok 0), s, [])

def pollFlush (s : SnowyStream) (outcomes : List WriteOutcome) : Poll Unit × SnowyStream × Bytes :=
  let pushed := s.drainWriteBuffer false outcomes
  match pushed.exit with
  | .failed err => (.ready (.error err), pushed.stream, pushed.emitted)
  | .blocked => (.pending, pushed.stream, pushed.emitted)
  | .drained => (.ready (.ok ()), pushed.stream.clearWriteBuffer, pushed.emitted)

end SnowyStream

/-! ## Reading -/

/-- A call in the middle of reading: the stream, what remains of the caller's buffer, the bytes put
there so far and the flag `has_read`. -/
structure Reading where
  stream : SnowyStream
  remaining : Nat
  out : Bytes
  hasRead : Bool

inductive ReadExit where
  | full | starved | panicked
  | failed (err : IoError)
  deriving DecidableEq

inductive Decrypted where
  | plaintext (buffer : RawVec UInt8)
  | refused (buffer : RawVec UInt8)
  | panicked

/-- Decrypt a payload into `read_buffer`. The subtraction in the reservation panics when it is
negative, and a length above the capacity is undefined; a refused message leaves the buffer at its
full length. -/
def decrypt (noise : Noise) (uninit : UInt8) (nonce : Nat) (payload : Bytes) (buffer : RawVec UInt8) : Decrypted :=
  if buffer.capacity ≤ maximumPlaintextLength then
    let reserved := buffer.reserveExact uninit (maximumPlaintextLength - buffer.capacity)
    if fits : maximumPlaintextLength ≤ reserved.capacity then
      let sized := reserved.setLen maximumPlaintextLength fits
      match noise.readMessage nonce payload with
      | some plaintext =>
        if plaintext.length ≤ maximumPlaintextLength then
          .plaintext ((sized.overwrite plaintext).truncate plaintext.length)
        else .refused sized
      | none => .refused sized
    else .panicked
  else .panicked

theorem OpaqueMessage.read_used {rustls : Rustls} {bytes : Bytes} {message : OpaqueMessage} {n : Nat}
    (h : rustls.read bytes = .ok (message, n)) : 5 ≤ n ∧ n ≤ bytes.length := by
  obtain ⟨typ, vhi, vlo, lhi, llo, rest, rfl, length, rfl, -⟩ := rustls.read_ok h
  simp only [tlsRecordHeaderLength, ← length, List.length_cons, List.length_append]
  omega

namespace Reading

def deliver (r : Reading) : Bool × Reading :=
  if r.stream.readOffset < r.stream.readBuffer.len then
    let len := min (r.stream.readBuffer.len - r.stream.readOffset) r.remaining
    let offset := r.stream.readOffset + len
    let put : Reading :=
      { stream := { r.stream with readOffset := offset }
        remaining := r.remaining - len
        out := r.out ++ r.stream.bufferedPlaintext.take len
        hasRead := r.hasRead || 0 < len }
    if offset < r.stream.readBuffer.len then (true, put)
    else (false, { put with stream := { r.stream with readOffset := 0, readBuffer := r.stream.readBuffer.clear } })
  else (false, r)

/-- The loop `'read_ready`: hand over plaintext, then pop and decrypt the next TLS frame, until the
caller's buffer is full or no whole frame is left. -/
def readReady (rustls : Rustls) (noise : Noise) (uninit : UInt8) (r : Reading) : ReadExit × Reading :=
  match r.deliver with
  | (true, put) => (.full, put)
  | (false, put) =>
    match _parsed : rustls.read r.stream.pendingRead with
    | .ok (message, n) =>
      let popped := { put.stream with pendingRead := r.stream.pendingRead.drop n }
      if message.payload = [] then readReady rustls noise uninit { put with stream := popped }
      else
        match decrypt noise uninit popped.recvNonce message.payload popped.readBuffer with
        | .plaintext buffer =>
          readReady rustls noise uninit
            { put with stream := { popped with readBuffer := buffer, recvNonce := popped.recvNonce + 1 } }
        | .refused buffer => (.failed noiseFailed, { put with stream := { popped with readBuffer := buffer } })
        | .panicked => (.panicked, { put with stream := popped })
    | .error .tooShortForHeader | .error .tooShortForLength => (.starved, put)
    | .error _ =>
      (.failed invalidFrame, { put with stream := { put.stream with state := put.stream.state.shutdownRead } })
  termination_by r.stream.pendingRead.length
  decreasing_by
    all_goals
      have := OpaqueMessage.read_used _parsed
      simp only [List.length_drop]
      omega

inductive Progress where
  | answered (poll : Poll Unit) (r : Reading) (wire : Bytes)
  | more (r : Reading) (wire : Bytes)

def readBuffers (rustls : Rustls) (noise : Noise) (uninit : UInt8) (r : Reading) (wire : Bytes) : Progress :=
  match readReady rustls noise uninit r with
  | (.full, r) => .answered (.ready (.ok ())) r wire
  | (.panicked, r) => .answered .panicked r wire
  | (.failed err, r) => .answered (.ready (.error err)) r wire
  | (.starved, r) => if r.hasRead then .answered (.ready (.ok ())) r wire else .more r wire

def endOfStream (r : Reading) (wire : Bytes) : Progress :=
  -- a read of no byte is taken for the end of the stream
  .answered (.ready (if r.stream.pendingRead ≠ [] then .error halfRead else .ok ())) r wire

def readSocket (r : Reading) (wire : Bytes) : ReadOutcome → Progress
  | .pending => .answered .pending r wire
  | .failed err =>
    let state := if err.kind = .connectionAborted ∨ err.kind = .unexpectedEof then
      r.stream.state.shutdownRead else r.stream.state
    .answered (.ready (.error err)) { r with stream := { r.stream with state := state } } wire
  | .eof => endOfStream r wire
  | .arrived n =>
    if wire = [] then .answered .pending r wire
    else
      let got := wire.take (min (n + 1) (maxWireSize - r.stream.pendingRead.length))
      if got = [] then endOfStream r wire
      else
        .more { r with stream := { r.stream with pendingRead := r.stream.pendingRead ++ got } }
          (wire.drop got.length)

/-- The loop `'read_more` over the socket's answers: the answer, the stream and the bytes left on
the wire. -/
def readMore (rustls : Rustls) (noise : Noise) (uninit : UInt8) (r : Reading) (wire : Bytes) :
    List ReadOutcome → Poll Unit × Reading × Bytes
  | [] =>
    match readBuffers rustls noise uninit r wire with
    | .answered poll r wire => (poll, r, wire)
    | .more r wire => (.pending, r, wire)
  | outcome :: outcomes =>
    match readBuffers rustls noise uninit r wire with
    | .answered poll r wire => (poll, r, wire)
    | .more r wire =>
      match readSocket r wire outcome with
      | .answered poll r wire => (poll, r, wire)
      | .more r wire => readMore rustls noise uninit r wire outcomes

/-- The rule for the loop: `Inv` at its head leads to `At` where the socket is read and back, and to
`Done` wherever the call is answered. -/
theorem readMore_rule {rustls : Rustls} {noise : Noise} {uninit : UInt8} {Inv At : Reading → Bytes → Prop}
    {Done : Poll Unit → Reading → Bytes → Prop}
    (buffers : ∀ r wire, Inv r wire →
      match r.readBuffers rustls noise uninit wire with
      | .answered poll r' left => Done poll r' left
      | .more r' left => At r' left)
    (socket : ∀ r wire outcome, At r wire →
      match r.readSocket wire outcome with
      | .answered poll r' left => Done poll r' left
      | .more r' left => Inv r' left)
    (blocked : ∀ r wire, At r wire → Done .pending r wire) {r r' : Reading} {wire left : Bytes} {poll : Poll Unit}
    {outcomes : List ReadOutcome} (h : Inv r wire)
    (ran : r.readMore rustls noise uninit wire outcomes = (poll, r', left)) : Done poll r' left := by
  induction outcomes generalizing r wire with
  | nil =>
    have first := buffers r wire h
    unfold readMore at ran
    split at ran
    · next answered =>
      rw [answered] at first
      cases ran
      exact first
    · next more =>
      rw [more] at first
      cases ran
      exact blocked _ _ first
  | cons outcome rest ih =>
    have first := buffers r wire h
    unfold readMore at ran
    split at ran
    · next answered =>
      rw [answered] at first
      cases ran
      exact first
    · next more =>
      rw [more] at first
      have second := socket _ _ outcome first
      split at ran
      · next answered =>
        rw [answered] at second
        cases ran
        exact second
      · next more =>
        rw [more] at second
        exact ih second ran

end Reading

/-- `poll_read` into a buffer with `remaining` free bytes: the answer, the stream, the bytes put into
the buffer and the bytes left on the wire. -/
def SnowyStream.pollRead (rustls : Rustls) (noise : Noise) (uninit : UInt8) (s : SnowyStream) (remaining : Nat)
    (wire : Bytes) (outcomes : List ReadOutcome) : Poll Unit × SnowyStream × Bytes × Bytes :=
  if s.state.readable then
    let (poll, r, wire) := Reading.readMore rustls noise uninit ⟨s, remaining, [], false⟩ wire outcomes
    (poll, r.stream, r.out, wire)
  else (.ready (.ok ()), s, [], wire)

/-- A call runs the loop, or finds the stream shut down and does nothing. -/
theorem SnowyStream.pollRead_cases {rustls : Rustls} {noise : Noise} {uninit : UInt8} {s s' : SnowyStream}
    {remaining : Nat} {wire out left : Bytes} {outcomes : List ReadOutcome} {poll : Poll Unit}
    (ran : s.pollRead rustls noise uninit remaining wire outcomes = (poll, s', out, left)) :
    (s.state.readable = true ∧ ∃ r, s' = r.stream ∧ out = r.out ∧
        Reading.readMore rustls noise uninit ⟨s, remaining, [], false⟩ wire outcomes = (poll, r, left)) ∨
      (poll = .ready (.ok ()) ∧ s' = s ∧ out = [] ∧ left = wire) := by
  unfold SnowyStream.pollRead at ran
  split at ran
  · next readable =>
    cases ran
    exact .inl ⟨readable, _, rfl, rfl, rfl⟩
  · cases ran
    exact .inr ⟨rfl, rfl, rfl, rfl⟩

end NoisyShuttle.Tunnel
