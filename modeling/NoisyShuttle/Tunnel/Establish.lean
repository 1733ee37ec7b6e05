import NoisyShuttle.Tunnel.Client
import NoisyShuttle.Tunnel.Handover
import NoisyShuttle.Tunnel.Integrity

/-!
# A tunnel is established

`Client::connect` and `Server::accept` from their first byte to the transport state, with the camouflage
server behind `accept`. Sockets are the bytes they deliver. The writes of `accept` can fail at any byte; those of
`connect` succeed.
-/

namespace NoisyShuttle.Tunnel

/-- The Noise handshake as snow does it, `-> psk, e` and `<- e, ee`. `E` are the keys an end draws, `I` and
`R` the states of the two ends after the first message. -/
structure Snow (E I R : Type) where
  initiate : Bytes → E → Bytes × I
  respond : Bytes → Bytes → Option R
  reply : R → E → Bytes × Noise
  conclude : I → Bytes → Option Noise
  initiate_length : ∀ key e, (initiate key e).1.length = 48
  reply_length : ∀ responder e, (reply responder e).1.length = 48
  agree : ∀ key e, ∃ responder, respond key (initiate key e).1 = some responder ∧
    ∀ e', ∃ noise, conclude (initiate key e).2 (reply responder e').1 = some noise ∧
      Matched noise (reply responder e').2 ∧ Matched (reply responder e').2 noise

def tlsv13 : ProtocolVersion := .named 0x0304

section

variable {Addr E I R σ : Type} (deps : Deps) (snow : Snow E I R)

/-! ## The server -/

structure Tunnelled where
  noise : Noise
  unread : Bytes

/-- A call of `accept`: its result, and what it has written to either side. -/
structure Accepting (Addr : Type) where
  result : Except (AcceptError Addr) Tunnelled
  toClient : Bytes
  toCamouflage : Bytes

/-- What follows the ServerHello: nothing in TLS 1.3, the rest of the handshake in any other version. The sockets have
taken `toCamouflage` and `toClient` before. -/
def Exchange.handOver (ex : Exchange) (faults : Faults) (toCamouflage toClient : Bytes) :
    Except IoError Unit × Copied × Copied :=
  if ex.shp.supportedVersions = some tlsv13 then
    (.ok (), ⟨.ok (), toCamouflage, ex.inbound⟩, ⟨.ok (), toClient, ex.outbound⟩)
  else relayUntilTls12HandshakeFinished faults toCamouflage toClient ex.inbound ex.outbound

/-- `accept` from the ServerHello on, with the key `e` it draws and the padding of its reply. -/
def concludePing (ex : Exchange) (responder : R) (e : E) (padding : Bytes) (faults : Faults) (toCamouflage : Bytes) :
    Accepting Addr :=
  match writeAll faults.client [] ex.buf.contents with
  | (.error err, toClient) => ⟨.error (.ioError err), toClient, toCamouflage⟩
  | (.ok (), toClient) =>
    match ex.handOver faults toCamouflage toClient with
    | (.error err, up, down) => ⟨.error (.ioError err), down.written, up.written⟩
    | (.ok (), up, down) =>
      let (eEe, noise) := snow.reply responder e
      match writeAll faults.client down.written (noiseReply eEe padding) with
      | (.error err, toClient) => ⟨.error (.ioError err), toClient, up.written⟩
      | (.ok (), toClient) => ⟨.ok ⟨noise, up.unread⟩, toClient, up.written⟩

/-- `accept` after the replay filter. -/
def answerPing (ping : Ping) (responder : R) (e : E) (padding : Bytes) (camouflage : Except IoError Bytes)
    (faults : Faults) : Accepting Addr :=
  match camouflage with
  | .error err => ⟨.error (.ioError err), [], []⟩
  | .ok answer =>
    match writeAll faults.camouflage [] ping.buf.contents with
    | (.error err, toCamouflage) => ⟨.error (.ioError err), [], toCamouflage⟩
    | (.ok (), toCamouflage) =>
      match exchangeHellos deps ping (.ok answer) with
      | .error err => ⟨.error err, [], toCamouflage⟩
      | .ok ex => concludePing snow ex responder e padding faults toCamouflage

/-- The whole of `accept`. The verdict of the responder is a part of `authenticate` already; its state is
what the reply is made of. -/
def acceptTunnel (srv : Server Addr) (now : UInt64) (peer : Addr) (e : E) (padding inbound : Bytes)
    (camouflage : Except IoError Bytes) (faults : Faults) : Accepting Addr × Server Addr :=
  match authenticate deps srv now inbound with
  | .error err => (⟨.error err, [], []⟩, srv)
  | .ok ping =>
    match snow.respond srv.key ping.chp.pskE with
    | none => (⟨.error (.unauthenticated ping.buf.contents ping.io), [], []⟩, srv)
    | some responder =>
      match checkReplay ping.chp.nonce peer srv.replayFilter with
      | (some firstFrom, rf) =>
        (⟨.error (.replayDetected ping.buf.contents ping.io ping.chp.nonce firstFrom), [], []⟩,
          { srv with replayFilter := rf })
      | (none, rf) =>
        (answerPing deps snow ping responder e padding camouflage faults, { srv with replayFilter := rf })

/-! ## The client -/

inductive ConnectPanic where
  | hello (text : String)
  | handshake (why : HandshakePanic)
  deriving DecidableEq

inductive Connected where
  | established (noise : Noise) (sent unread : Bytes)
  | failed (err : IoError)
  | panicked (why : ConnectPanic)

/-- The vector that holds the ClientHello: it was allocated for a record. -/
def helloBuffer (uninit : UInt8) (hello : Bytes) : RawVec UInt8 :=
  ((RawVec.empty.reserveExact uninit (tlsRecordHeaderLength + maximumCiphertextLength)).overwrite hello).setLen
    hello.length (RawVec.le_capacity_overwrite ..)

def readServerHello (stream : Bytes) (buf : RawVec UInt8) :
    Except IoError (ServerHelloPayload × RawVec UInt8 × Bytes) :=
  match readTlsMessage deps.rustls deps.uninit stream buf with
  | .error err => .error err
  | .ok (verdict, buf, rest) =>
    let parsed := verdict.toOption.bind fun _ => parseTlsPlainMessage deps.rustls buf.contents
    match (parsed.filter (·.isHandshakeType .serverHello)).bind (·.intoServerHelloPayload) with
    | some shp => .ok (shp, buf, rest)
    | none => .error ⟨.invalidData, "Not or invalid Server Hello"⟩

/-- `connect` after the ServerHello: rustls is given that record by one call, then `tls12_handshake`. -/
def finishTls (tls : ClientConnection σ) (debugAssertions : Bool) (conn : σ) (shp : ServerHelloPayload)
    (hello stream : Bytes) : Handshaken σ :=
  if shp.supportedVersions = some tlsv13 then .done conn [] stream
  else
    match tls.readTls conn hello with
    | none => .failed ⟨.other, "message buffer full"⟩
    | some (_, conn) => tls12Handshake tls debugAssertions false conn stream

/-- `connect` on a socket that delivers `stream`, with the key `e` it draws. `conn` is the rustls connection
once it has written a ClientHello. -/
def Client.connect (fpDeps : FingerprintDeps) (config : TlsConfig) (tls : ClientConnection σ)
    (debugAssertions : Bool) (conn : ClientMessage → σ) (client : Client) (now : UInt64) (e : E) (stream : Bytes) :
    Connected :=
  let (pskE, initiator) := snow.initiate client.key e
  match client.clientHello deps fpDeps config pskE now with
  | .error text => .panicked (.hello text)
  | .ok msg =>
    match readServerHello deps stream (helloBuffer deps.uninit msg.writeTls) with
    | .error err => .failed err
    | .ok (shp, buf, rest) =>
      match finishTls tls debugAssertions (conn msg) shp buf.contents rest with
      | .failed err => .failed err
      | .panicked why => .panicked (.handshake why)
      | .done _ sent rest =>
        match readPong deps.rustls deps.uninit rest with
        | .error err => .failed err
        | .ok (eEe, unread) =>
          match snow.conclude initiator eEe with
          | none => .failed ⟨.invalidData, "decrypt error"⟩
          | some noise => .established noise (msg.writeTls ++ sent) unread

end

/-! ## What is forwarded -/

/-- The rest of the handshake goes to the other side as it came. -/
theorem handOver_forwards {ex : Exchange} {faults : Faults} {toCamouflage toClient : Bytes}
    {result : Except IoError Unit} {up down : Copied}
    (h : ex.handOver faults toCamouflage toClient = (result, up, down)) :
    (∃ sent, up.written = toCamouflage ++ sent ∧ sent <+: ex.inbound ∧
      (result = .ok () → ex.inbound = sent ++ up.unread)) ∧
    ∃ shown, down.written = toClient ++ shown ∧ shown <+: ex.outbound := by
  unfold Exchange.handOver at h
  split at h
  · cases h
    exact ⟨⟨[], (List.append_nil _).symm, List.nil_prefix, fun _ => rfl⟩, [], (List.append_nil _).symm, List.nil_prefix⟩
  · unfold relayUntilTls12HandshakeFinished at h
    obtain ⟨upward, allUp, withinUp, doneUp⟩ := copyRecords_forwards faults.camouflage false toCamouflage ex.inbound
    obtain ⟨downward, allDown, withinDown, -⟩ := copyRecords_forwards faults.client false toClient ex.outbound
    cases h
    refine ⟨⟨upward, allUp, withinUp, ?_⟩, downward, allDown, withinDown⟩
    intro ok
    apply doneUp
    cases read : (copyRecords faults.camouflage false toCamouflage ex.inbound).result with
    | ok done => rfl
    | error err =>
      rw [read] at ok
      cases ok

variable {Addr E I R σ : Type} {deps : Deps} {snow : Snow E I R}

/-- So all that was written is of the two sides, if what was written before it is. -/
theorem handOver_within {ex : Exchange} {faults : Faults} {toCamouflage inbound answer : Bytes}
    {result : Except IoError Unit} {up down : Copied} (sent : inbound = toCamouflage ++ ex.inbound)
    (shown : answer = ex.buf.contents ++ ex.outbound)
    (h : ex.handOver faults toCamouflage ex.buf.contents = (result, up, down)) :
    up.written <+: inbound ∧ down.written <+: answer ∧ (result = .ok () → inbound = up.written ++ up.unread) := by
  obtain ⟨⟨more, upward, withinUp, rest⟩, less, downward, withinDown⟩ := handOver_forwards h
  rw [upward, downward, sent, shown]
  refine ⟨(List.prefix_append_right_inj _).mpr withinUp, (List.prefix_append_right_inj _).mpr withinDown, ?_⟩
  intro ok
  rw [List.append_assoc, ← rest ok]

theorem authenticate_record {srv : Server Addr} {now : UInt64} {inbound : Bytes} {ping : Ping}
    (h : authenticate deps srv now inbound = .ok ping) : inbound = ping.buf.contents ++ ping.io := by
  rcases readClientHello_split deps (authenticate_ok deps h).1 with ⟨-, whole⟩ | ⟨-, none, -⟩
  · exact whole
  · cases none

theorem exchangeHellos_ok {ping : Ping} {answer : Bytes} {ex : Exchange}
    (h : (exchangeHellos deps ping (.ok answer) : Except (AcceptError Addr) Exchange) = .ok ex) :
    answer = ex.buf.contents ++ ex.outbound ∧ ex.inbound = ping.io := by
  unfold exchangeHellos at h
  dsimp only at h
  split at h
  · cases h
  · next verdict buf rest read =>
    split at h
    · next shp hello =>
      cases h
      cases verdict with
      | ok _ => exact ⟨(readTlsMessage_accepted deps.rustls read).2, rfl⟩
      | error err => cases hello
    · cases h

/-- What `accept` has done with the bytes of the two sides, with the state of the responder in `responds` and the
reply it makes of it. -/
structure Accepting.Forwards (accepting : Accepting Addr) (snow : Snow E I R) (responds : R → Prop) (e : E)
    (padding : Bytes) (fails : Option (Nat × IoError)) (inbound answer : Bytes) : Prop where
  toCamouflage : accepting.toCamouflage <+: inbound
  failed : ∀ err, accepting.result = .error err → accepting.toClient <+: answer ∨
    ∃ n failure forwarded part responder, fails = some (n, failure) ∧ err = .ioError failure ∧ responds responder ∧
      accepting.toClient = forwarded ++ part ∧ forwarded <+: answer ∧
      part <+: noiseReply (snow.reply responder e).1 padding
  established : ∀ tunnel, accepting.result = .ok tunnel → inbound = accepting.toCamouflage ++ tunnel.unread ∧
    ∃ forwarded responder, forwarded <+: answer ∧ responds responder ∧
      accepting.toClient = forwarded ++ noiseReply (snow.reply responder e).1 padding ∧
      tunnel.noise = (snow.reply responder e).2

section

variable {responds : R → Prop} {e : E} {padding inbound answer : Bytes} {faults : Faults}

/-- With nothing but a part of either side's bytes passed on. -/
theorem forwards_failed (err : AcceptError Addr) {toClient toCamouflage : Bytes} (down : toClient <+: answer)
    (up : toCamouflage <+: inbound) :
    (Accepting.mk (.error err) toClient toCamouflage).Forwards snow responds e padding faults.client inbound answer :=
  ⟨up, fun _ _ => Or.inl down, by simp⟩

theorem concludePing_forwards {ex : Exchange} {responder : R} {toCamouflage : Bytes}
    (sent : inbound = toCamouflage ++ ex.inbound) (shown : answer = ex.buf.contents ++ ex.outbound)
    (own : responds responder) :
    (concludePing snow ex responder e padding faults toCamouflage : Accepting Addr).Forwards snow responds e padding
      faults.client inbound answer := by
  have held : toCamouflage <+: inbound := ⟨_, sent.symm⟩
  have hello : ex.buf.contents <+: answer := ⟨_, shown.symm⟩
  unfold concludePing
  split
  · next err toClient cut =>
    obtain ⟨part, rfl, within, -⟩ := writeAll_taken cut
    exact forwards_failed _ (within.trans hello) held
  · next toClient greeted =>
    obtain ⟨part, rfl, -, all, -⟩ := writeAll_taken greeted
    obtain rfl := all rfl
    split
    · next err up down handed =>
      obtain ⟨above, below, -⟩ := handOver_within sent shown handed
      exact forwards_failed _ below above
    · next up down handed =>
      obtain ⟨above, below, rest⟩ := handOver_within sent shown handed
      dsimp only
      split
      · next err toClient cut =>
        obtain ⟨part, rfl, within, -, cause⟩ := writeAll_taken cut
        obtain ⟨n, failure⟩ := cause err rfl
        refine ⟨above, ?_, by simp⟩
        intro err same
        cases same
        exact Or.inr ⟨n, _, _, part, responder, failure, rfl, own, rfl, below, within⟩
      · next toClient replied =>
        obtain ⟨part, rfl, -, all, -⟩ := writeAll_taken replied
        obtain rfl := all rfl
        refine ⟨above, by simp, ?_⟩
        intro tunnel established
        cases established
        exact ⟨rest rfl, _, responder, below, own, rfl, rfl⟩

theorem answerPing_forwards {ping : Ping} {responder : R} {camouflage : Except IoError Bytes}
    (whole : inbound = ping.buf.contents ++ ping.io) (own : responds responder) :
    (answerPing deps snow ping responder e padding camouflage faults : Accepting Addr).Forwards snow responds e padding
      faults.client inbound (camouflage.toOption.getD []) := by
  have hello : ping.buf.contents <+: inbound := ⟨_, whole.symm⟩
  unfold answerPing
  split
  · exact forwards_failed _ List.nil_prefix List.nil_prefix
  · next answer =>
    split
    · next err toCamouflage cut =>
      obtain ⟨part, rfl, within, -⟩ := writeAll_taken cut
      exact forwards_failed _ List.nil_prefix (within.trans hello)
    · next toCamouflage passed =>
      obtain ⟨part, rfl, -, all, -⟩ := writeAll_taken passed
      obtain rfl := all rfl
      split
      · exact forwards_failed _ List.nil_prefix hello
      · next ex exchanged =>
        obtain ⟨shown, rest⟩ := exchangeHellos_ok exchanged
        rw [← rest] at whole
        exact concludePing_forwards whole shown own

end

/-- The state of the Noise responder after the message in the ClientHello that `inbound` begins with. -/
def Responds (deps : Deps) (snow : Snow E I R) (srv : Server Addr) (inbound : Bytes) (responder : R) : Prop :=
  ∃ chp buf rest, readClientHello deps inbound = .ok (some chp, buf, rest) ∧
    snow.respond srv.key chp.pskE = some responder

/-- Nothing but the client's own bytes goes to the camouflage server, and nothing but the camouflage
server's goes to the client, until the one record that ends the handshake, or the part of it that the client's
socket takes; what was not forwarded of the client's bytes is left for the tunnel. -/
theorem accept_forwards (deps : Deps) (snow : Snow E I R) (srv after : Server Addr) (now : UInt64) (peer : Addr)
    (e : E) (padding inbound : Bytes) (camouflage : Except IoError Bytes) (faults : Faults)
    (accepting : Accepting Addr)
    (h : acceptTunnel deps snow srv now peer e padding inbound camouflage faults = (accepting, after)) :
    accepting.Forwards snow (Responds deps snow srv inbound) e padding faults.client inbound
      (camouflage.toOption.getD []) := by
  unfold acceptTunnel at h
  split at h
  · cases h
    exact forwards_failed _ List.nil_prefix List.nil_prefix
  · next ping passed =>
    split at h
    · cases h
      exact forwards_failed _ List.nil_prefix List.nil_prefix
    · next responder responds =>
      split at h
      · cases h
        exact forwards_failed _ List.nil_prefix List.nil_prefix
      · obtain ⟨rfl, -⟩ := Prod.mk.inj h
        exact answerPing_forwards (authenticate_record passed) ⟨_, _, _, (authenticate_ok deps passed).1, responds⟩

/-- A handshake without secrets. -/
def plainSnow : Snow Unit Unit Unit where
  initiate _ _ := (List.replicate 48 0x07, ())
  respond _ _ := some ()
  reply _ _ := (List.replicate 48 0x09, plainNoise)
  conclude _ _ := some plainNoise
  initiate_length _ _ := rfl
  reply_length _ _ := rfl
  agree _ _ := ⟨(), rfl, fun _ => ⟨plainNoise, rfl, matched_plainNoise, matched_plainNoise⟩⟩

/-- A payload of the byte 2 is a ServerHello of TLS 1.2, of the byte 3 one of TLS 1.3. -/
def plainHellos (om : OpaqueMessage) : Option Message :=
  if om.payload = [0x02] then some (.handshake .serverHello (.serverHello ⟨none⟩))
  else if om.payload = [0x03] then some (.handshake .serverHello (.serverHello ⟨some tlsv13⟩))
  else plainClientHello om

def greetingDeps : Deps := ⟨Rustls.registered plainHellos, checksum, fun _ _ => true, 0⟩

/-- A ClientHello with the signature of the key `k` at the time 600. -/
def signedHello : Bytes :=
  handshakeRecord 0x0303 (List.replicate 48 0x07 ++
    (Totp.new checksum [0x6b] 60 2).sign checksum 16 600 (List.replicate 32 0x07))

/-- A signed hello before a camouflage server of TLS 1.3, whose ServerHello has six bytes. -/
def greeted (faults : Faults) : Accepting Unit × Server Unit :=
  acceptTunnel greetingDeps plainSnow (Server.new greetingDeps Unit [0x6b] 2) 750 () () [1, 2] (signedHello ++ [0x17])
    (.ok ([0x16, 0x03, 0x03, 0x00, 0x01, 0x03] ++ [0x14])) faults

/-- Once with a client that takes it all, and once with one that goes away after eight bytes. -/
theorem accept_forwards_tls13 :
    (∃ tunnel, (greeted .none).1.result = .ok tunnel ∧ tunnel.unread = [0x17] ∧
      signedHello ++ [0x17] = (greeted .none).1.toCamouflage ++ tunnel.unread) ∧
    (greeted ⟨some (8, ⟨.other, "broken pipe"⟩), none⟩).1.toClient =
      [0x16, 0x03, 0x03, 0x00, 0x01, 0x03, 0x17, 0x03] ∧
    (greeted ⟨some (8, ⟨.other, "broken pipe"⟩), none⟩).1.toCamouflage <+: signedHello ++ [0x17] := by
  have forwards (faults : Faults) := accept_forwards greetingDeps plainSnow (Server.new greetingDeps Unit [0x6b] 2)
    (greeted faults).2 750 () () [1, 2] (signedHello ++ [0x17]) (.ok ([0x16, 0x03, 0x03, 0x00, 0x01, 0x03] ++ [0x14]))
    faults (greeted faults).1 Prod.mk.eta.symm
  have left : (greeted .none).1.result.toOption.map Tunnelled.unread = some [0x17] := by decide +kernel
  refine ⟨?_, by decide +kernel, (forwards _).toCamouflage⟩
  cases result : (greeted .none).1.result with
  | error err =>
    rw [result] at left
    cases left
  | ok tunnel =>
    rw [result] at left
    exact ⟨tunnel, rfl, Option.some.inj left, ((forwards .none).established tunnel result).1⟩

/-! ## Both ends -/

/-- The server reads the ClientHello of `connect` back and takes its Noise message for genuine. -/
theorem authenticate_clientHello {fpDeps : FingerprintDeps} {config : TlsConfig}
    (faithful : Faithful deps.rustls fpDeps.getEncoding) (named : ownVersion deps.rustls config.version = true)
    {key pskE : Bytes} {spec : FingerprintSpec} (length : pskE.length = 48) {tc ts : UInt64}
    (early : 2 * 60 ≤ ts.toNat) (late : ts.toNat + 2 * 60 < 2 ^ 64)
    (near : tc.toNat / 60 ≤ ts.toNat / 60 + 2 ∧ ts.toNat / 60 ≤ tc.toNat / 60 + 2) {msg : ClientMessage}
    (built : (Client.newWithFingerprint deps key spec).clientHello deps fpDeps config pskE tc = .ok msg)
    (own : ∀ ja3, spec.ja3 = some ja3 → ownVersion deps.rustls ja3.version = true)
    (parses : msg.parses deps.rustls = true) (short : msg.encoded.length < maximumCiphertextLength)
    (genuine : deps.noisePing (derivePsk deps key) pskE = true) (rf : LruCache Bytes Addr) (rest : Bytes) :
    ∃ ping, authenticate deps ⟨derivePsk deps key, rf, Totp.new deps.blake2s key 60 2⟩ ts (msg.writeTls ++ rest) =
        .ok ping ∧
      ping.chp.pskE = pskE ∧ ping.chp.nonce = pskE.take 32 ∧ ping.buf.contents = msg.writeTls ∧ ping.io = rest := by
  obtain ⟨hello, rfl, random, sessionId⟩ := clientHello_spec built
  have fits : (fpDeps.getEncoding hello).length < maximumCiphertextLength := short
  obtain ⟨buf, read⟩ := readClientHello_writeTls faithful (ownVersion_overwritten named own) parses fits rest
  obtain ⟨front, timesig⟩ := sessionId_halves sessionId (List.length_take_le ..) (List.length_take_le ..)
  obtain ⟨joined, nonce⟩ := pskE_eq length random front
  have range : (Totp.new deps.blake2s key 60 2).InRange ts := by
    show 2 ≤ ts.toNat / 60 ∧ (ts.toNat / 60 + 2) * 60 < 2 ^ 64
    omega
  have verified : (Totp.new deps.blake2s key 60 2).verify deps.blake2s 16 hello.nonce hello.timesig ts = true := by
    rw [nonce, timesig]
    exact Totp.verify_sign deps.blake2s 16 (pskE.take 32) (Nat.zero_lt_succ 59) (Nat.le_of_ble_eq_true rfl) range
      near.2 near.1
  have opened : deps.noisePing (derivePsk deps key) hello.pskE = true := by
    rw [joined]
    exact genuine
  have passed := @authenticate_of_hello Addr deps ⟨derivePsk deps key, rf, Totp.new deps.blake2s key 60 2⟩ ts _ rest
    hello.toClientHelloPayload buf read verified opened
  exact ⟨_, passed, joined, nonce, (List.append_cancel_right (authenticate_record passed)).symm, rfl⟩

/-- A record that `read_tls_message` lets pass and rustls takes for a ServerHello. -/
def IsServerHello (rustls : Rustls) (r : TlsRecord) (shp : ServerHelloPayload) : Prop :=
  headerAccepted rustls r.bytes = true ∧
    parseTlsPlainMessage rustls r.bytes = some (.handshake .serverHello (.serverHello shp))

theorem readTlsMessage_serverHello {rustls : Rustls} {r : TlsRecord} {shp : ServerHelloPayload}
    (h : IsServerHello rustls r shp) (uninit : UInt8) (rest : Bytes) (buf : RawVec UInt8) :
    ∃ after, readTlsMessage rustls uninit (r.bytes ++ rest) buf = .ok (.ok (), after, rest) ∧
      after.contents = r.bytes :=
  readTlsMessage_whole rustls uninit rest buf h.1 (ofBe16_be16 r.small)

/-- How the handshake goes on after the ServerHello: `down` comes from the camouflage server, `up` from the
client. In TLS 1.2 rustls takes the flight of the server and answers with one of the same form. -/
inductive Continues (tls : ClientConnection σ) (debugAssertions : Bool) (conn : σ) (hello : Bytes)
    (shp : ServerHelloPayload) : Bytes → Bytes → Prop where
  | tls13 : shp.supportedVersions = some tlsv13 → Continues tls debugAssertions conn hello shp [] []
  | tls12 {n : Nat} {fed after : σ} {flight answer : ServerFlight} :
      shp.supportedVersions ≠ some tlsv13 → tls.readTls conn hello = some (n, fed) →
      Accepts tls fed flight.records →
      tls12Handshake tls debugAssertions false fed flight.bytes = .done after answer.bytes [] →
      Continues tls debugAssertions conn hello shp flight.bytes answer.bytes

theorem Continues.client {tls : ClientConnection σ} {debugAssertions : Bool} {conn : σ} {hello down up : Bytes}
    {shp : ServerHelloPayload} (h : Continues tls debugAssertions conn hello shp down up) (rest : Bytes) :
    ∃ after, finishTls tls debugAssertions conn shp hello (down ++ rest) = .done after up rest := by
  unfold finishTls
  cases h with
  | tls13 version => exact ⟨conn, if_pos version⟩
  | @tls12 n fed after flight answer version taken accepted answered =>
    obtain ⟨last, sent, ends⟩ := tls12Handshake_flight debugAssertions flight accepted
    have same := ends []
    rw [List.append_nil, answered] at same
    cases same
    rw [if_neg version, taken]
    exact ⟨_, ends rest⟩

theorem Continues.server {tls : ClientConnection σ} {debugAssertions : Bool} {conn : σ} {hello down up : Bytes}
    {shp : ServerHelloPayload} (h : Continues tls debugAssertions conn hello shp down up) (buf : RawVec UInt8)
    (toCamouflage toClient later trailing : Bytes) :
    Exchange.handOver ⟨shp, buf, up ++ later, down ++ trailing⟩ .none toCamouflage toClient =
      (.ok (), ⟨.ok (), toCamouflage ++ up, later⟩, ⟨.ok (), toClient ++ down, trailing⟩) := by
  unfold Exchange.handOver
  cases h with
  | tls13 version =>
    rw [if_pos version, List.append_nil, List.append_nil]
    rfl
  | @tls12 n fed after flight answer version taken accepted answered =>
    rw [if_neg version, relayUntilTls12HandshakeFinished, Faults.none, copyRecords_flight, copyRecords_flight]
    rfl

theorem exchangeHellos_serverHello {r : TlsRecord} {shp : ServerHelloPayload} (hello : IsServerHello deps.rustls r shp)
    (ping : Ping) (outbound : Bytes) :
    ∃ buf, (exchangeHellos deps ping (.ok (r.bytes ++ outbound)) : Except (AcceptError Addr) Exchange) =
        .ok ⟨shp, buf, ping.io, outbound⟩ ∧
      buf.contents = r.bytes := by
  obtain ⟨buf, read, contents⟩ := readTlsMessage_serverHello hello deps.uninit outbound ping.buf
  refine ⟨buf, ?_, contents⟩
  unfold exchangeHellos
  dsimp only
  rw [read]
  dsimp only
  rw [contents, Except.toOption, Option.bind_some, hello.2]
  rfl

theorem readServerHello_serverHello {r : TlsRecord} {shp : ServerHelloPayload} (hello : IsServerHello deps.rustls r shp)
    (buf : RawVec UInt8) (rest : Bytes) :
    ∃ after, readServerHello deps (r.bytes ++ rest) buf = .ok (shp, after, rest) ∧ after.contents = r.bytes := by
  obtain ⟨after, read, contents⟩ := readTlsMessage_serverHello hello deps.uninit rest buf
  refine ⟨after, ?_, contents⟩
  unfold readServerHello
  rw [read]
  dsimp only
  rw [contents, Except.toOption, Option.bind_some, hello.2]
  rfl

/-- A client and a server with one key and clocks that agree come to transport states that match, over TLS 1.3
and over TLS 1.2. Each takes from its socket what belongs to the handshake and nothing of what follows it, and the
camouflage server sees a TLS client and no more. -/
theorem handshake_establishes (deps : Deps) (fpDeps : FingerprintDeps) (config : TlsConfig) (snow : Snow E I R)
    (verdict : ∀ key msg, deps.noisePing key msg = (snow.respond key msg).isSome)
    (faithful : Faithful deps.rustls fpDeps.getEncoding) (named : ownVersion deps.rustls config.version = true)
    (tls : ClientConnection σ) (debugAssertions : Bool) (conn : ClientMessage → σ)
    (key padding : Bytes) (padded : padding.length ≤ 24) (spec : FingerprintSpec)
    (own : ∀ ja3, spec.ja3 = some ja3 → ownVersion deps.rustls ja3.version = true) (e e' : E) (tc ts : UInt64)
    (early : 2 * 60 ≤ ts.toNat) (late : ts.toNat + 2 * 60 < 2 ^ 64)
    (near : tc.toNat / 60 ≤ ts.toNat / 60 + 2 ∧ ts.toNat / 60 ≤ tc.toNat / 60 + 2) (msg : ClientMessage)
    (built : (Client.newWithFingerprint deps key spec).clientHello deps fpDeps config
      (snow.initiate (derivePsk deps key) e).1 tc = .ok msg)
    (parses : msg.parses deps.rustls = true) (short : msg.encoded.length < maximumCiphertextLength)
    (rf : LruCache Bytes Addr) (fresh : (snow.initiate (derivePsk deps key) e).1.take 32 ∉ rf.keys) (peer : Addr)
    (hello : TlsRecord) (shp : ServerHelloPayload) (answers : IsServerHello deps.rustls hello shp) (down up : Bytes)
    (continues : Continues tls debugAssertions (conn msg) hello.bytes shp down up) (later later' trailing : Bytes) :
    ∃ reply noise noise',
      (acceptTunnel deps snow ⟨derivePsk deps key, rf, Totp.new deps.blake2s key 60 2⟩ ts peer e' padding
          (msg.writeTls ++ up ++ later) (.ok (hello.bytes ++ down ++ trailing)) .none).1 =
        ⟨.ok ⟨noise', later⟩, hello.bytes ++ down ++ reply, msg.writeTls ++ up⟩ ∧
      (Client.newWithFingerprint deps key spec).connect deps snow fpDeps config tls debugAssertions conn tc e
          (hello.bytes ++ down ++ reply ++ later') = .established noise (msg.writeTls ++ up) later' ∧
      Matched noise noise' ∧ Matched noise' noise := by
  obtain ⟨responder, responds, concludes⟩ := snow.agree (derivePsk deps key) e
  obtain ⟨noise, concluded, forth, back⟩ := concludes e'
  have genuine : deps.noisePing (derivePsk deps key) (snow.initiate (derivePsk deps key) e).1 = true := by
    rw [verdict, responds]
    rfl
  refine ⟨noiseReply (snow.reply responder e').1 padding, noise, (snow.reply responder e').2, ?_, ?_, forth, back⟩
  · obtain ⟨ping, passed, joined, nonce, sent, io⟩ := authenticate_clientHello faithful named
      (snow.initiate_length ..) early late near built own parses short genuine rf (up ++ later)
    obtain ⟨buf, exchanged, forwarded⟩ :=
      @exchangeHellos_serverHello Addr deps hello shp answers ping (down ++ trailing)
    have handed := continues.server buf ping.buf.contents buf.contents later trailing
    have unseen : checkReplay ping.chp.nonce peer rf = (none, rf.put ping.chp.nonce peer) := by
      rw [checkReplay, nonce, LruCache.get_of_not_mem fresh]
    unfold acceptTunnel
    rw [List.append_assoc, passed]
    dsimp only
    rw [joined, responds]
    dsimp only
    rw [unseen]
    dsimp only
    have passes (written data : Bytes) : writeAll Faults.none.client written data = (.ok (), written ++ data) := rfl
    have through (data : Bytes) : writeAll Faults.none.camouflage [] data = (.ok (), data) := rfl
    unfold answerPing
    dsimp only
    rw [through]
    dsimp only
    rw [List.append_assoc, exchanged, io]
    dsimp only [concludePing]
    rw [passes, List.nil_append]
    dsimp only
    rw [handed]
    dsimp only
    rw [passes, forwarded, sent]
  · obtain ⟨buf, read, contents⟩ := readServerHello_serverHello answers (helloBuffer deps.uninit msg.writeTls)
      (down ++ (noiseReply (snow.reply responder e').1 padding ++ later'))
    obtain ⟨after, finished⟩ := continues.client (noiseReply (snow.reply responder e').1 padding ++ later')
    have pong := readPong_noiseReply deps.rustls deps.uninit (snow.reply_length responder e') padded later'
    have own : (Client.newWithFingerprint deps key spec).key = derivePsk deps key := rfl
    unfold Client.connect
    rw [own]
    dsimp only
    rw [built]
    dsimp only
    rw [List.append_assoc, List.append_assoc, read]
    dsimp only
    rw [contents, finished]
    dsimp only
    rw [pong]
    dsimp only
    rw [concluded]

theorem plainHellos_encoding (hello : ClientHello) (version : ProtocolVersion) :
    plainHellos ⟨.handshake, version, plainEncoding hello⟩ =
      some (.handshake .clientHello (.clientHello hello.toClientHelloPayload)) := by
  have long (byte : UInt8) : plainEncoding hello ≠ [byte] := by
    intro same
    have length := plainEncoding_length hello
    rw [same, List.length_singleton] at length
    omega
  rw [plainHellos, if_neg (long 0x02), if_neg (long 0x03), plainClientHello_encoding]

theorem plainHellos_faithful : Faithful (Rustls.registered plainHellos) plainEncoding where
  contentType := rfl
  encoded := plainEncoding_faithful.encoded
  decoded hello version _ read := Option.some.inj (read.symm.trans (plainHellos_encoding hello version))

/-- A connection that has its flight to send after the first record, and takes every record at once. -/
def ClientConnection.flying : ClientConnection Nat where
  toRustls := greetingDeps.rustls
  wantsRead _ := true
  pending conn := if conn = 1 then 1 else 0
  writeTls conn := if conn = 1 then (ServerFlight.shortest.bytes, 2) else ([], conn)
  readTls conn offered := some (offered.length, conn)
  processNewPackets conn := .ok (if conn = 0 then 1 else conn)
  contentType_changeCipherSpec := rfl
  contentType_handshake := rfl
  writeTls_pending conn more := by
    by_cases one : conn = 1
    · subst one
      decide
    · rw [if_neg one] at more
      exact absurd more (Nat.lt_irrefl 0)

theorem feed_flying (conn : Nat) (record : Bytes) : feed .flying conn record = .ok conn := by
  cases record with
  | nil => rw [feed]
  | cons byte rest =>
    have taken : ClientConnection.flying.readTls conn (byte :: rest) = some (rest.length + 1, conn) := rfl
    rw [feed, taken]
    dsimp only
    rw [List.drop_length, feed]

theorem accepts_flying (conn : Nat) (records : List TlsRecord) : Accepts .flying conn records := by
  induction records generalizing conn with
  | nil => trivial
  | cons r later ih => exact ⟨rfl, _, _, feed_flying _ _, rfl, ih _⟩

theorem tls12Handshake_flying (debugAssertions : Bool) :
    tls12Handshake .flying debugAssertions false 0 ServerFlight.shortest.bytes =
      .done 2 ServerFlight.shortest.bytes [] := by
  obtain ⟨done, given⟩ : ∃ r, ServerFlight.shortest.handshakes = [r] := ⟨_, rfl⟩
  have typ : done.typ = handshakeCode := ServerFlight.shortest.handshakes_typ done (by rw [given]; simp)
  have whole : ServerFlight.shortest.bytes =
      done.bytes ++ (ServerFlight.shortest.ccs.bytes ++ (ServerFlight.shortest.finished.bytes ++ [])) := by
    have layout := ServerFlight.shortest.bytes_append []
    rwa [given, List.append_nil, List.map_singleton, List.flatten_singleton] at layout
  have plain {typ : UInt8} (same : typ = handshakeCode) :
      ¬ ClientConnection.flying.contentType typ = .changeCipherSpec := by
    rw [same]
    decide
  have room : tlsRecordHeaderLength + maximumCiphertextLength ≤
      max (tlsRecordHeaderLength + maximumCiphertextLength) ServerFlight.shortest.bytes.length := by omega
  have writes : ClientConnection.flying.wantsWrite 1 = true := rfl
  have written : ClientConnection.flying.writeTls 1 = (ServerFlight.shortest.bytes, 2) := rfl
  have first : ClientConnection.flying.processNewPackets 0 = .ok 1 := rfl
  have others : ClientConnection.flying.processNewPackets 2 = .ok 2 := rfl
  -- the first record, the flight of the client, the ChangeCipherSpec and the last record
  rw [tls12Handshake, whole,
    tls12Loop_record debugAssertions false false _ rfl rfl (Nat.le_refl _) (feed_flying 0 _) first, if_neg (plain typ),
    if_neg (by simp [typ]), if_neg (by decide), tls12Loop.eq_def, dif_pos writes, written]
  dsimp only
  rw [tls12Loop_record debugAssertions false false _ rfl rfl room (feed_flying 2 _) others, if_pos (by rfl),
    if_neg (by decide),
    tls12Loop_record debugAssertions false true _ rfl rfl room (feed_flying 2 _) others,
    if_neg (plain ServerFlight.shortest.finished_typ),
    if_neg (by simp [ServerFlight.shortest]), if_pos rfl, List.nil_append, ← whole]

/-- The ServerHello of that record layer. -/
def plainServerHello : TlsRecord := ⟨handshakeCode, 0x03, 0x03, [0x02], by decide⟩

theorem handshake_establishes_tls12 :
    ∃ msg reply noise noise',
      (Client.newWithFingerprint greetingDeps [0x6b] (fingerprintOf 0x0303 [0x1301])).clientHello greetingDeps
        plainFpDeps plainTls (List.replicate 48 0x07) 600 = .ok msg ∧
      (acceptTunnel greetingDeps plainSnow (Server.new greetingDeps Unit [0x6b] 2) 750 () () [1, 2]
          (msg.writeTls ++ ServerFlight.shortest.bytes ++ [0x17])
          (.ok (plainServerHello.bytes ++ ServerFlight.shortest.bytes ++ [0x15])) .none).1 =
        ⟨.ok ⟨noise', [0x17]⟩, plainServerHello.bytes ++ ServerFlight.shortest.bytes ++ reply,
          msg.writeTls ++ ServerFlight.shortest.bytes⟩ ∧
      (Client.newWithFingerprint greetingDeps [0x6b] (fingerprintOf 0x0303 [0x1301])).connect greetingDeps plainSnow
          plainFpDeps plainTls .flying true (fun _ => 0) 600 ()
          (plainServerHello.bytes ++ ServerFlight.shortest.bytes ++ reply ++ [0x16]) =
        .established noise (msg.writeTls ++ ServerFlight.shortest.bytes) [0x16] ∧
      Matched noise noise' := by
  obtain ⟨hello, built, ciphers⟩ : ∃ hello,
      (Client.newWithFingerprint greetingDeps [0x6b] (fingerprintOf 0x0303 [0x1301])).clientHello greetingDeps
          plainFpDeps plainTls (List.replicate 48 0x07) 600 =
        .ok ⟨0x0303, .clientHello hello (plainEncoding hello)⟩ ∧ hello.cipherSuites = [0x1301] := ⟨_, rfl, rfl⟩
  have short : (plainEncoding hello).length < maximumCiphertextLength := by
    rw [plainEncoding_length, ciphers]
    decide
  have parses :
      (plainHellos ⟨.handshake, greetingDeps.rustls.version 0x0303, plainEncoding hello⟩).isSome = true := by
    rw [plainHellos_encoding]
    rfl
  obtain ⟨reply, noise, noise', accepted, connected, forth, -⟩ :=
    handshake_establishes greetingDeps plainFpDeps plainTls plainSnow (fun _ _ => rfl) plainHellos_faithful rfl
      .flying true (fun _ => 0) [0x6b] [1, 2] (by decide) (fingerprintOf 0x0303 [0x1301])
      (fun ja3 same => by cases same; rfl) () () 600 750 (by decide) (by decide) (by decide) _ built parses short
      (LruCache.new 2) List.not_mem_nil () plainServerHello ⟨none⟩ ⟨by decide +kernel, by decide +kernel⟩ _ _
      (.tls12 (by decide) rfl (accepts_flying ..) (tls12Handshake_flying true)) [0x17] [0x16] [0x15]
  exact ⟨_, reply, noise, noise', built, accepted, connected, forth⟩

end NoisyShuttle.Tunnel
