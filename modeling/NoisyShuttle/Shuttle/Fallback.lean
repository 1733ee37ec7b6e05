import NoisyShuttle.Tunnel.Server

/-!
# The fallback relay of the shuttle server

When `Server::accept` turns a client away, `handle_connection` writes the buffer of the error to
the camouflage server and then copies what is left on the client's socket.
-/

namespace NoisyShuttle.Shuttle
open Tunnel

variable {Addr : Type} (deps : Deps)

/-- The buffer and the unread socket of the three errors that turn a client away. -/
def rejectedClient : AcceptError Addr → Option (Bytes × Bytes)
  | .unauthenticated buf io => some (buf, io)
  | .replayDetected buf io _ _ => some (buf, io)
  | .clientHelloInvalid buf io => some (buf, io)
  | .ioError _ | .serverHelloInvalid .. => none

/-- What the camouflage server receives: `write_all(buf)`, then `copy_bidirectional`. -/
def fallbackRelay (buf io : Bytes) : Bytes := buf ++ io

theorem authenticate_rejected {srv : Server Addr} {now : UInt64} {stream buf io : Bytes} {err : AcceptError Addr}
    (h : authenticate deps srv now stream = .error err) (rejected : rejectedClient err = some (buf, io)) :
    ∃ hello after, readClientHello deps stream = .ok (hello, after, io) ∧ after.contents = buf := by
  unfold authenticate at h
  split at h
  · cases h
    cases rejected
  · next after rest read =>
    cases h
    cases rejected
    exact ⟨none, after, read, rfl⟩
  · next chp after rest read =>
    split at h
    · cases h
      cases rejected
      exact ⟨some chp, after, read, rfl⟩
    · cases h

theorem exchangeHellos_not_rejected {ping : Ping} {camouflage : Except IoError Bytes} {err : AcceptError Addr}
    (h : exchangeHellos deps ping camouflage = .error err) : rejectedClient err = none := by
  unfold exchangeHellos at h
  split at h
  · cases h
    rfl
  · split at h
    · cases h
      rfl
    · dsimp only at h
      split at h <;> cases h
      rfl

theorem accept_rejected {srv after : Server Addr} {now : UInt64} {peer : Addr} {stream buf io : Bytes}
    {camouflage : Except IoError Bytes} {err : AcceptError Addr}
    (h : accept deps srv now peer stream camouflage = (.error err, after))
    (rejected : rejectedClient err = some (buf, io)) :
    ∃ hello read, readClientHello deps stream = .ok (hello, read, io) ∧ read.contents = buf := by
  unfold accept at h
  split at h
  · next failed =>
    cases h
    exact authenticate_rejected deps failed rejected
  · next ping passed =>
    have first := (authenticate_ok deps passed).1
    split at h
    · cases h
      cases rejected
      exact ⟨some ping.chp, ping.buf, first, rfl⟩
    · simp only [Prod.mk.injEq] at h
      have none := exchangeHellos_not_rejected deps h.1
      rw [rejected] at none
      cases none

/-- The camouflage server receives the client's bytes unchanged exactly when the header of the
first record passes the checks of `read_tls_message`: a rejected header is dropped. -/
theorem fallback_transparent_iff {srv after : Server Addr} {now : UInt64} {peer : Addr} {stream buf io : Bytes}
    {camouflage : Except IoError Bytes} {err : AcceptError Addr}
    (h : accept deps srv now peer stream camouflage = (.error err, after))
    (rejected : rejectedClient err = some (buf, io)) :
    buf ++ io = stream ∧ fallbackRelay buf io = stream ↔ headerAccepted deps.rustls stream = true := by
  obtain ⟨hello, read, first, rfl⟩ := accept_rejected deps h rejected
  rcases readClientHello_split deps first with ⟨accepted, whole⟩ | ⟨refused, _, empty, header, five, split⟩
  · exact ⟨fun _ => accepted, fun _ => ⟨whole.symm, whole.symm⟩⟩
  · constructor
    · rintro ⟨same, _⟩
      rw [empty, split, List.nil_append] at same
      have lengths := congrArg List.length same
      rw [List.length_append, five] at lengths
      omega
    · intro accepted
      rw [refused] at accepted
      cases accepted

def probedDeps : Deps := ⟨Rustls.registered fun _ => some .other, id, fun _ _ => false, 0⟩

def probedServer : Server Unit := ⟨[], LruCache.new 1, ⟨[], 60, 2⟩⟩

theorem fallback_transparent_alert :
    accept probedDeps probedServer 0 () [0x15, 0x03, 0x03, 0x00, 0x02, 0x01, 0x00, 0x2a] (.ok []) =
        (.error (.clientHelloInvalid [0x15, 0x03, 0x03, 0x00, 0x02, 0x01, 0x00] [0x2a]), probedServer) ∧
      fallbackRelay [0x15, 0x03, 0x03, 0x00, 0x02, 0x01, 0x00] [0x2a] =
        [0x15, 0x03, 0x03, 0x00, 0x02, 0x01, 0x00, 0x2a] := by
  have rejected : accept probedDeps probedServer 0 () [0x15, 0x03, 0x03, 0x00, 0x02, 0x01, 0x00, 0x2a] (.ok []) =
      (.error (.clientHelloInvalid [0x15, 0x03, 0x03, 0x00, 0x02, 0x01, 0x00] [0x2a]), probedServer) := rfl
  exact ⟨rejected, ((fallback_transparent_iff probedDeps rejected rfl).mpr (by decide)).2⟩

/-- The first line of a plain HTTP request: five bytes never reach the camouflage server. -/
theorem fallback_drops_header :
    accept probedDeps probedServer 0 () [0x47, 0x45, 0x54, 0x20, 0x2f, 0x0d, 0x0a] (.ok []) =
        (.error (.clientHelloInvalid [] [0x0d, 0x0a]), probedServer) ∧
      fallbackRelay [] [0x0d, 0x0a] ≠ [0x47, 0x45, 0x54, 0x20, 0x2f, 0x0d, 0x0a] :=
  ⟨rfl, by decide⟩

/-! ## The camouflage server's answer -/

/-- What the client receives after `ServerHelloInvalid`: `write_all(buf)`, then `copy_bidirectional`. -/
def fallbackReply (buf outbound : Bytes) : Bytes := buf ++ outbound

theorem exchangeHellos_invalid {ping : Ping} {answer buf inbound outbound : Bytes}
    (h : (exchangeHellos deps ping (.ok answer) : Except (AcceptError Addr) Exchange) =
      .error (.serverHelloInvalid buf inbound outbound)) :
    ∃ verdict after, readTlsMessage deps.rustls deps.uninit answer ping.buf = .ok (verdict, after, outbound) ∧
      after.contents = buf := by
  unfold exchangeHellos at h
  dsimp only at h
  split at h
  · cases h
  · next verdict after rest read =>
    split at h
    · cases h
    · cases h
      exact ⟨verdict, after, read, rfl⟩

theorem authenticate_error {srv : Server Addr} {now : UInt64} {stream buf inbound outbound : Bytes} :
    authenticate deps srv now stream ≠ .error (.serverHelloInvalid buf inbound outbound) := by
  intro h
  unfold authenticate at h
  split at h
  · cases h
  · cases h
  · split at h <;> cases h

theorem accept_serverHelloInvalid {srv after : Server Addr} {now : UInt64} {peer : Addr}
    {stream answer buf inbound outbound : Bytes}
    (h : accept deps srv now peer stream (.ok answer) = (.error (.serverHelloInvalid buf inbound outbound), after)) :
    ∃ ping, authenticate deps srv now stream = .ok ping ∧
      (exchangeHellos deps ping (.ok answer) : Except (AcceptError Addr) Exchange) =
        .error (.serverHelloInvalid buf inbound outbound) := by
  unfold accept at h
  split at h
  · next failed =>
    have invalid := Except.error.inj (Prod.mk.inj h).1
    rw [invalid] at failed
    exact (authenticate_error deps failed).elim
  · next ping passed =>
    split at h
    · cases h
    · exact ⟨ping, passed, (Prod.mk.inj h).1⟩

theorem headerAccepted_append (rustls : Rustls) {header : Bytes} (five : header.length = 5) (first second : Bytes) :
    headerAccepted rustls (header ++ first) = headerAccepted rustls (header ++ second) := by
  match header, five with
  | [_, _, _, _, _], _ => rfl

/-- The client sees the camouflage server's bytes unchanged exactly when their first header passes the
checks of `read_tls_message`; otherwise it is dropped and the client's own hello is shown in its place. -/
theorem camouflage_transparent_iff {srv after : Server Addr} {now : UInt64} {peer : Addr}
    {stream answer buf inbound outbound : Bytes}
    (h : accept deps srv now peer stream (.ok answer) = (.error (.serverHelloInvalid buf inbound outbound), after)) :
    buf ++ outbound = answer ∧ fallbackReply buf outbound = answer ↔ headerAccepted deps.rustls answer = true := by
  obtain ⟨ping, passed, invalid⟩ := accept_serverHelloInvalid deps h
  obtain ⟨verdict, read, answered, rfl⟩ := exchangeHellos_invalid deps invalid
  cases verdict with
  | ok _ =>
    obtain ⟨accepted, whole⟩ := readTlsMessage_accepted deps.rustls answered
    exact ⟨fun _ => accepted, fun _ => ⟨whole.symm, whole.symm⟩⟩
  | error err =>
    obtain ⟨rfl, refused, header, five, split⟩ := readTlsMessage_rejected deps.rustls answered
    constructor
    · rintro ⟨same, _⟩
      -- the buffer still holds the client's record, which cannot pass for the refused header
      have record : ping.buf.contents = header := by
        rw [split] at same
        exact List.append_cancel_right same
      have first := (authenticate_ok deps passed).1
      rcases readClientHello_split deps first with ⟨accepted, whole⟩ | ⟨_, none, _⟩
      · rw [whole, record, headerAccepted_append deps.rustls five _ outbound, ← split, refused] at accepted
        cases accepted
      · cases none
    · intro accepted
      rw [refused] at accepted
      cases accepted

def blankHello : ClientHelloPayload := ⟨List.replicate 32 0, List.replicate 32 0, rfl, rfl⟩

/-- A record whose payload is the byte 1 is a ClientHello, and every signature is right. -/
def greetedDeps : Deps where
  rustls := Rustls.registered fun om =>
    if om.payload = [0x01] then some (.handshake .clientHello (.clientHello blankHello)) else some .other
  blake2s := fun _ => List.replicate 32 0
  noisePing := fun _ _ => true
  uninit := 0

theorem camouflage_transparent_alert :
    (accept greetedDeps probedServer 0 () [0x16, 0x03, 0x01, 0x00, 0x01, 0x01]
        (.ok [0x15, 0x03, 0x03, 0x00, 0x02, 0x02, 0x28, 0x2a])).1 =
      .error (.serverHelloInvalid [0x15, 0x03, 0x03, 0x00, 0x02, 0x02, 0x28] [] [0x2a]) ∧
    fallbackReply [0x15, 0x03, 0x03, 0x00, 0x02, 0x02, 0x28] [0x2a] =
      [0x15, 0x03, 0x03, 0x00, 0x02, 0x02, 0x28, 0x2a] := by
  have invalid : accept greetedDeps probedServer 0 () [0x16, 0x03, 0x01, 0x00, 0x01, 0x01]
      (.ok [0x15, 0x03, 0x03, 0x00, 0x02, 0x02, 0x28, 0x2a]) =
      (.error (.serverHelloInvalid [0x15, 0x03, 0x03, 0x00, 0x02, 0x02, 0x28] [] [0x2a]),
        { probedServer with replayFilter := (LruCache.new 1).put (List.replicate 32 0) () }) := rfl
  exact ⟨by rw [invalid], ((camouflage_transparent_iff greetedDeps invalid).mpr (by decide)).2⟩

/-- The camouflage server answers in plain HTTP: the client is shown its own hello. -/
theorem camouflage_shows_client_hello :
    (accept greetedDeps probedServer 0 () [0x16, 0x03, 0x01, 0x00, 0x01, 0x01]
        (.ok [0x48, 0x54, 0x54, 0x50, 0x2f, 0x31])).1 =
      .error (.serverHelloInvalid [0x16, 0x03, 0x01, 0x00, 0x01, 0x01] [] [0x31]) ∧
    fallbackReply [0x16, 0x03, 0x01, 0x00, 0x01, 0x01] [0x31] ≠ [0x48, 0x54, 0x54, 0x50, 0x2f, 0x31] :=
  ⟨rfl, by decide⟩

end NoisyShuttle.Shuttle
