import NoisyShuttle.Lib.Lru
import NoisyShuttle.Tunnel.Tls
import NoisyShuttle.Tunnel.Totp

/-!
# `Server::accept` up to the exchange of hellos

A socket is the bytes it still has to deliver. `accept` is cut where the source takes and releases
the lock of the replay filter: `authenticate` runs before it, `checkReplay` is the critical
section, `exchangeHellos` runs after it.
-/

namespace NoisyShuttle.Tunnel

/-- What the tunnel takes from its dependencies: the record layer, the hash and the Noise
responder's verdict on the first message under a pre-shared key. -/
structure Deps where
  rustls : Rustls
  blake2s : Bytes → Bytes
  noisePing : Bytes → Bytes → Bool
  uninit : UInt8

variable {Addr : Type} (deps : Deps)

structure Server (Addr : Type) where
  key : Bytes
  replayFilter : LruCache Bytes Addr
  totp : Totp

def pskContext : Bytes := "the secure tunnel under snow".toUTF8.toList

def derivePsk (key : Bytes) : Bytes := possiblyInsecureHashWithKey deps.blake2s pskContext key

def Server.new (Addr : Type) (key : Bytes) (replayFilterSize : Nat) : Server Addr where
  key := derivePsk deps key
  replayFilter := LruCache.new replayFilterSize
  totp := Totp.new deps.blake2s key 60 2

inductive AcceptError (Addr : Type) where
  | ioError (err : IoError)
  | unauthenticated (buf io : Bytes)
  | replayDetected (buf io nonce : Bytes) (firstFrom : Addr)
  | clientHelloInvalid (buf io : Bytes)
  | serverHelloInvalid (buf inbound outbound : Bytes)

/-- An authenticated ClientHello: the record in `buf` and what the client sent after it. -/
structure Ping where
  chp : ClientHelloPayload
  buf : RawVec UInt8
  io : Bytes

def ClientHelloPayload.pskE (chp : ClientHelloPayload) : Bytes := chp.random ++ chp.sessionId.take 16

def ClientHelloPayload.timesig (chp : ClientHelloPayload) : Bytes := (chp.sessionId.drop 16).take 16

def ClientHelloPayload.nonce (chp : ClientHelloPayload) : Bytes := chp.pskE.take 32

def readClientHello (inbound : Bytes) :
    Except IoError (Option ClientHelloPayload × RawVec UInt8 × Bytes) :=
  match readTlsMessage deps.rustls deps.uninit inbound RawVec.empty with
  | .error err => .error err
  | .ok (verdict, buf, inbound) =>
    let parsed := verdict.toOption.bind fun _ => parseTlsPlainMessage deps.rustls buf.contents
    let hello := (parsed.filter (·.isHandshakeType .clientHello)).bind (·.intoClientHelloPayload)
    .ok (hello, buf, inbound)

/-- `accept` before the replay filter, with the clock at `now`. -/
def authenticate (srv : Server Addr) (now : UInt64) (inbound : Bytes) : Except (AcceptError Addr) Ping :=
  match readClientHello deps inbound with
  | .error err => .error (.ioError err)
  | .ok (none, buf, inbound) => .error (.clientHelloInvalid buf.contents inbound)
  | .ok (some chp, buf, inbound) =>
    if !srv.totp.verify deps.blake2s 16 chp.nonce chp.timesig now || !deps.noisePing srv.key chp.pskE then
      .error (.unauthenticated buf.contents inbound)
    else .ok ⟨chp, buf, inbound⟩

def checkReplay (nonce : Bytes) (peer : Addr) (rf : LruCache Bytes Addr) : Option Addr × LruCache Bytes Addr :=
  match rf.get nonce with
  | (some clientId, rf) => (some clientId, rf)
  | (none, rf) => (none, rf.put nonce peer)

structure Exchange where
  shp : ServerHelloPayload
  buf : RawVec UInt8
  inbound : Bytes
  outbound : Bytes

/-- `accept` after the replay filter: `camouflage` is what the camouflage server answers, or why
the connection to it failed. The record buffer is the one that holds the ClientHello. -/
def exchangeHellos (ping : Ping) (camouflage : Except IoError Bytes) : Except (AcceptError Addr) Exchange :=
  match camouflage with
  | .error err => .error (.ioError err)
  | .ok outbound =>
    match readTlsMessage deps.rustls deps.uninit outbound ping.buf with
    | .error err => .error (.ioError err)
    | .ok (verdict, buf, outbound) =>
      let parsed := verdict.toOption.bind fun _ => parseTlsPlainMessage deps.rustls buf.contents
      match (parsed.filter (·.isHandshakeType .serverHello)).bind (·.intoServerHelloPayload) with
      | some shp => .ok ⟨shp, buf, ping.io, outbound⟩
      | none => .error (.serverHelloInvalid buf.contents ping.io outbound)

/-- One `accept` call with nothing in between: its result and the server after it. -/
def accept (srv : Server Addr) (now : UInt64) (peer : Addr) (inbound : Bytes)
    (camouflage : Except IoError Bytes) : Except (AcceptError Addr) Exchange × Server Addr :=
  match authenticate deps srv now inbound with
  | .error err => (.error err, srv)
  | .ok ping =>
    match checkReplay ping.chp.nonce peer srv.replayFilter with
    | (some firstFrom, rf) =>
      (.error (.replayDetected ping.buf.contents ping.io ping.chp.nonce firstFrom), { srv with replayFilter := rf })
    | (none, rf) => (exchangeHellos deps ping camouflage, { srv with replayFilter := rf })

/-! ### What is left of the client's bytes -/

theorem readClientHello_split {inbound rest : Bytes} {hello : Option ClientHelloPayload} {buf : RawVec UInt8}
    (h : readClientHello deps inbound = .ok (hello, buf, rest)) :
    (headerAccepted deps.rustls inbound = true ∧ inbound = buf.contents ++ rest) ∨
      (headerAccepted deps.rustls inbound = false ∧ hello = none ∧ buf.contents = [] ∧
        ∃ header, header.length = 5 ∧ inbound = header ++ rest) := by
  unfold readClientHello at h
  cases read : readTlsMessage deps.rustls deps.uninit inbound RawVec.empty with
  | error err => rw [read] at h; cases h
  | ok result =>
    obtain ⟨verdict, after, left⟩ := result
    rw [read] at h
    simp only [Except.ok.injEq, Prod.mk.injEq] at h
    obtain ⟨parsed, rfl, rfl⟩ := h
    cases verdict with
    | ok _ => exact Or.inl (readTlsMessage_accepted deps.rustls read)
    | error err =>
      obtain ⟨rfl, rejected, lost⟩ := readTlsMessage_rejected deps.rustls read
      exact Or.inr ⟨rejected, by rw [← parsed]; rfl, rfl, lost⟩

theorem authenticate_of_hello {srv : Server Addr} {now : UInt64} {inbound rest : Bytes} {chp : ClientHelloPayload}
    {buf : RawVec UInt8} (read : readClientHello deps inbound = .ok (some chp, buf, rest))
    (verified : srv.totp.verify deps.blake2s 16 chp.nonce chp.timesig now = true)
    (opened : deps.noisePing srv.key chp.pskE = true) :
    authenticate deps srv now inbound = .ok ⟨chp, buf, rest⟩ := by
  unfold authenticate
  rw [read]
  dsimp only
  rw [verified, opened]
  rfl

theorem authenticate_ok {srv : Server Addr} {now : UInt64} {inbound : Bytes} {ping : Ping}
    (h : authenticate deps srv now inbound = .ok ping) :
    readClientHello deps inbound = .ok (some ping.chp, ping.buf, ping.io) ∧
      srv.totp.verify deps.blake2s 16 ping.chp.nonce ping.chp.timesig now = true ∧
      deps.noisePing srv.key ping.chp.pskE = true := by
  unfold authenticate at h
  split at h
  · cases h
  · cases h
  · next chp buf rest read =>
    split at h
    · cases h
    · next passed =>
      cases h
      simp only [Bool.or_eq_true, Bool.not_eq_true', not_or, Bool.not_eq_false] at passed
      exact ⟨read, passed.1, passed.2⟩

end NoisyShuttle.Tunnel
