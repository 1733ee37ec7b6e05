import NoisyShuttle.Tunnel.Fingerprint
import NoisyShuttle.Tunnel.Server

/-!
# `Client::connect` up to its ClientHello

The first Noise message and its signature are hidden in the random and the session id of a ClientHello.
rustls builds the message, the fingerprint overwrites it, and the server reads it back.
-/

namespace NoisyShuttle.Tunnel

/-- rustls as `connect` configures it: what it puts into a ClientHello, for the ALPN protocols of the
configuration. -/
structure TlsConfig where
  version : UInt16
  cipherSuites : List UInt16
  extensions : List Bytes → List ClientExtension

structure Client where
  key : Bytes
  fingerprintSpec : FingerprintSpec
  totp : Totp

section

variable (deps : Deps) (fpDeps : FingerprintDeps) (tls : TlsConfig)

def Client.newWithFingerprint (key : Bytes) (fingerprintSpec : FingerprintSpec) : Client where
  key := derivePsk deps key
  fingerprintSpec := fingerprintSpec
  totp := Totp.new deps.blake2s key 60 2

def Client.new (key : Bytes) : Client := Client.newWithFingerprint deps key .new

def defaultAlpnProtocols : List Bytes := ["http/2".toUTF8.toList, "http/1.1".toUTF8.toList]

/-- The ALPN of the spec counts only if the JA3 lists the extension. -/
def FingerprintSpec.alpnProtocols (fp : FingerprintSpec) : List Bytes :=
  match fp.ja3 with
  | some ja3 => if extensionALProtocolNegotiation ∈ ja3.extensions then fp.alpn.getD defaultAlpnProtocols else []
  | none => []

/-- The ClientHello of `connect` for the first Noise message `pskE` at `now`; an error is the text of a
panic. -/
def Client.clientHello (client : Client) (pskE : Bytes) (now : UInt64) : Except String ClientMessage :=
  let random := pskE.take 32
  let timesig := client.totp.sign deps.blake2s 16 now random
  let sessionId := (pskE.drop 32).take 16 ++ timesig
  if sizes : random.length = 32 ∧ sessionId.length = 32 then
    let extensions := tls.extensions client.fingerprintSpec.alpnProtocols
    let hello : ClientHello := ⟨⟨random, sessionId, sizes.1, sizes.2⟩, tls.cipherSuites, extensions⟩
    let msg : ClientMessage := ⟨tls.version, .clientHello hello (fpDeps.getEncoding hello)⟩
    match client.fingerprintSpec.getClientHelloOverwriter fpDeps true true with
    | some chwriter => (chwriter msg).map Prod.fst
    | none => .ok msg
  else .error "source slice length does not match destination slice length"

end

/-- rustls splits what it sends into records of at most 2^14 bytes. -/
def fragments (bytes : Bytes) : List Bytes :=
  if _more : bytes = [] then []
  else bytes.take maximumCiphertextLength :: fragments (bytes.drop maximumCiphertextLength)
  termination_by bytes.length
  decreasing_by
    have := List.length_pos_iff.mpr _more
    have : 0 < maximumCiphertextLength := by decide
    simp only [List.length_drop]
    omega

def handshakeRecord (version : UInt16) (fragment : Bytes) : Bytes :=
  0x16 :: (be16 version.toNat ++ be16 fragment.length ++ fragment)

/-- What `write_tls` puts out for a message. -/
def ClientMessage.writeTls (msg : ClientMessage) : Bytes :=
  match msg.payload with
  | .clientHello _ encoded | .handshake _ encoded => (fragments encoded).flatMap (handshakeRecord msg.version)
  | .other payload => payload

def ClientMessage.encoded (msg : ClientMessage) : Bytes :=
  match msg.payload with
  | .clientHello _ encoded | .handshake _ encoded => encoded
  | .other payload => payload

/-- Versions that `read_tls_message` lets pass: the ones rustls names, and 0x03XX. -/
def ownVersion (rustls : Rustls) (version : UInt16) : Bool :=
  match rustls.version version with
  | .unknown v => v &&& 0xff00 = 0x0300
  | _ => true

/-- rustls can read the message back. It cannot read every ClientHello it encodes: extensions that the
fingerprint has added have made-up payloads. -/
def ClientMessage.parses (rustls : Rustls) (msg : ClientMessage) : Bool :=
  (rustls.tryFrom ⟨.handshake, rustls.version msg.version, msg.encoded⟩).isSome

/-- What rustls reads of a ClientHello it has encoded has the same random and session id. -/
structure Faithful (rustls : Rustls) (getEncoding : ClientHello → Bytes) : Prop where
  contentType : rustls.contentType 0x16 = .handshake
  encoded : ∀ hello, getEncoding hello ≠ []
  decoded : ∀ hello version msg, rustls.tryFrom ⟨.handshake, version, getEncoding hello⟩ = some msg →
    msg = .handshake .clientHello (.clientHello hello.toClientHelloPayload)

/-! ## The record of a ClientHello -/

variable {deps : Deps} {fpDeps : FingerprintDeps} {tls : TlsConfig} {rustls : Rustls}

theorem fragments_short {bytes : Bytes} (some : bytes ≠ []) (short : bytes.length ≤ maximumCiphertextLength) :
    fragments bytes = [bytes] := by
  rw [fragments, dif_neg some, List.take_of_length_le short, List.drop_eq_nil_of_le short, fragments, dif_pos rfl]

theorem foreignVersion_eq (rustls : Rustls) (version : UInt16) :
    rustls.foreignVersion (UInt8.ofNat (version.toNat / 256)) (UInt8.ofNat version.toNat) =
      !ownVersion rustls version := by
  unfold Enums.foreignVersion ownVersion
  rw [ofBe16_be16 version.toNat_lt, UInt16.ofNat_toNat]
  cases rustls.version version with
  | named code => rfl
  | unknown code => simp

theorem handshakeRecord_accepted (contentType : rustls.contentType 0x16 = .handshake) {version : UInt16}
    (own : ownVersion rustls version = true) {fragment : Bytes} (some : fragment ≠ [])
    (short : fragment.length < maximumCiphertextLength) :
    ∃ vhi vlo lhi llo, be16 version.toNat = [vhi, vlo] ∧ be16 fragment.length = [lhi, llo] ∧
      ofBe16 vhi vlo = version.toNat ∧ ofBe16 lhi llo = fragment.length ∧
      headerAccepted rustls [0x16, vhi, vlo, lhi, llo] = true := by
  have narrow : fragment.length < 65536 := Nat.lt_trans short (by decide)
  have size := ofBe16_be16 narrow
  have known : rustls.newContentType 0x16 = false := by simp [Enums.newContentType, contentType]
  have ours : rustls.foreignVersion (UInt8.ofNat (version.toNat / 256)) (UInt8.ofNat version.toNat) = false := by
    rw [foreignVersion_eq, own]
    rfl
  have sized : rustls.undersize 0x16 fragment.length = false := by
    simp [Enums.undersize, List.length_eq_zero_iff, some]
  refine ⟨_, _, _, _, rfl, rfl, ofBe16_be16 version.toNat_lt, size, ?_⟩
  simp only [headerAccepted, known, ours, size, sized, Bool.not_false, Bool.true_and, decide_eq_true_eq]
  exact short

theorem read_accepted {typ vhi vlo lhi llo : UInt8} {payload : Bytes}
    (accepted : headerAccepted rustls [typ, vhi, vlo, lhi, llo] = true) (size : ofBe16 lhi llo = payload.length) :
    ∃ n, rustls.read (typ :: vhi :: vlo :: lhi :: llo :: payload) =
      .ok (⟨rustls.contentType typ, rustls.version (UInt16.ofNat (ofBe16 vhi vlo)), payload⟩, n) := by
  simp only [headerAccepted, Bool.and_eq_true, Bool.not_eq_true', decide_eq_true_eq] at accepted
  obtain ⟨⟨⟨known, ours⟩, sized⟩, bounded⟩ := accepted
  have parsed := rustls.read_record [] ⟨known, ours, sized, Nat.lt_trans bounded (by decide)⟩ size.symm
  rw [List.append_nil] at parsed
  exact ⟨_, parsed⟩

theorem readClientHello_record {getEncoding : ClientHello → Bytes} (faithful : Faithful deps.rustls getEncoding)
    {version : UInt16} (own : ownVersion deps.rustls version = true) {hello : ClientHello}
    (parses : ClientMessage.parses deps.rustls ⟨version, .clientHello hello (getEncoding hello)⟩ = true)
    (short : (getEncoding hello).length < maximumCiphertextLength) (rest : Bytes) :
    ∃ buf, readClientHello deps (handshakeRecord version (getEncoding hello) ++ rest) =
      .ok (some hello.toClientHelloPayload, buf, rest) := by
  obtain ⟨vhi, vlo, lhi, llo, versioned, sized, code, size, accepted⟩ :=
    handshakeRecord_accepted faithful.contentType own (faithful.encoded hello) short
  obtain ⟨buf, read, contents⟩ :=
    readTlsMessage_whole deps.rustls deps.uninit rest RawVec.empty accepted size
  obtain ⟨n, parsed⟩ := read_accepted accepted size
  obtain ⟨msg, decoded⟩ := Option.isSome_iff_exists.mp parses
  dsimp only [ClientMessage.encoded] at decoded
  have layout : handshakeRecord version (getEncoding hello) ++ rest =
      0x16 :: vhi :: vlo :: lhi :: llo :: (getEncoding hello ++ rest) := by
    simp only [handshakeRecord, versioned, sized, List.cons_append, List.nil_append]
  have plain : parseTlsPlainMessage deps.rustls buf.contents =
      some (.handshake .clientHello (.clientHello hello.toClientHelloPayload)) := by
    unfold parseTlsPlainMessage
    rw [contents, parsed]
    dsimp only
    rw [faithful.contentType, code, UInt16.ofNat_toNat, decoded, faithful.decoded _ _ _ decoded]
  refine ⟨buf, ?_⟩
  unfold readClientHello
  rw [layout, read]
  simp only [Except.toOption, Option.bind_some, plain]
  rfl

theorem readClientHello_writeTls {getEncoding : ClientHello → Bytes} (faithful : Faithful deps.rustls getEncoding)
    {version : UInt16} (own : ownVersion deps.rustls version = true) {hello : ClientHello}
    (parses : ClientMessage.parses deps.rustls ⟨version, .clientHello hello (getEncoding hello)⟩ = true)
    (short : (getEncoding hello).length < maximumCiphertextLength) (rest : Bytes) :
    ∃ buf, readClientHello deps
        (ClientMessage.writeTls ⟨version, .clientHello hello (getEncoding hello)⟩ ++ rest) =
      .ok (some hello.toClientHelloPayload, buf, rest) := by
  unfold ClientMessage.writeTls
  dsimp only
  rw [fragments_short (faithful.encoded hello) (Nat.le_of_lt short), List.flatMap_singleton]
  exact readClientHello_record faithful own parses short rest

/-- A record of another version, or as long as rustls makes them, is rejected by its header. -/
theorem readClientHello_rejected {version : UInt16} {fragment : Bytes}
    (bounded : fragment.length ≤ maximumCiphertextLength)
    (odd : ownVersion deps.rustls version = false ∨ maximumCiphertextLength ≤ fragment.length) (rest : Bytes) :
    readClientHello deps (handshakeRecord version fragment ++ rest) = .ok (none, RawVec.empty, fragment ++ rest) := by
  have narrow : fragment.length < 65536 := Nat.lt_of_le_of_lt bounded (by decide)
  have rejected : headerAccepted deps.rustls (handshakeRecord version fragment ++ rest) = false := by
    simp only [handshakeRecord, be16, List.cons_append, List.nil_append, headerAccepted, foreignVersion_eq,
      ofBe16_be16 narrow]
    rcases odd with foreign | long
    · simp [foreign]
    · simp [long]
  obtain ⟨err, read⟩ := readTlsMessage_unaccepted deps.rustls deps.uninit RawVec.empty rejected
  have header : readTlsMessage deps.rustls deps.uninit (handshakeRecord version fragment ++ rest) RawVec.empty =
      .ok (.error err, RawVec.empty, fragment ++ rest) := read
  unfold readClientHello
  rw [header]
  rfl

/-- What the server makes of a ClientHello whose version it does not know or that fills a record. -/
theorem readClientHello_writeTls_rejected (deps : Deps) (version : UInt16) (hello : ClientHello) {encoded : Bytes}
    (some : encoded ≠ [])
    (odd : ownVersion deps.rustls version = false ∨ maximumCiphertextLength ≤ encoded.length) :
    ∃ rest, readClientHello deps (ClientMessage.writeTls ⟨version, .clientHello hello encoded⟩) =
      .ok (none, RawVec.empty, rest) := by
  have first : (encoded.take maximumCiphertextLength).length = min maximumCiphertextLength encoded.length :=
    List.length_take
  unfold ClientMessage.writeTls
  dsimp only
  rw [fragments, dif_neg some, List.flatMap_cons]
  refine ⟨_, readClientHello_rejected (by omega) ?_ _⟩
  rcases odd with foreign | long
  · exact Or.inl foreign
  · exact Or.inr (by omega)

/-! ## Authentication -/

/-- What `connect` puts into the ClientHello, whatever the fingerprint does to it. -/
theorem clientHello_spec {client : Client} {pskE : Bytes} {now : UInt64} {msg : ClientMessage}
    (h : client.clientHello deps fpDeps tls pskE now = .ok msg) :
    ∃ hello, msg = ⟨(client.fingerprintSpec.ja3.map (·.version)).getD tls.version,
        .clientHello hello (fpDeps.getEncoding hello)⟩ ∧
      hello.random = pskE.take 32 ∧
      hello.sessionId = (pskE.drop 32).take 16 ++ client.totp.sign deps.blake2s 16 now (pskE.take 32) := by
  unfold Client.clientHello at h
  dsimp only at h
  split at h
  · next sizes =>
    unfold FingerprintSpec.getClientHelloOverwriter at h
    by_cases empty : client.fingerprintSpec.isEmpty = true
    · rw [if_pos empty] at h
      obtain rfl := Except.ok.inj h
      have unversioned : client.fingerprintSpec.ja3 = none := by
        simp only [FingerprintSpec.isEmpty, Bool.and_eq_true, Option.isNone_iff_eq_none] at empty
        exact empty.1.1.1.1
      exact ⟨_, by rw [unversioned]; rfl, rfl, rfl⟩
    · rw [if_neg empty] at h
      dsimp only at h
      cases written : overwriteClientHelloWithFingerprintSpec fpDeps client.fingerprintSpec true true
          ⟨tls.version, .clientHello ⟨⟨pskE.take 32, (pskE.drop 32).take 16 ++
              client.totp.sign deps.blake2s 16 now (pskE.take 32), sizes.1, sizes.2⟩, tls.cipherSuites,
            tls.extensions client.fingerprintSpec.alpnProtocols⟩ _⟩ with
      | error panic =>
        rw [written] at h
        cases h
      | ok result =>
        obtain ⟨new, allowed⟩ := result
        rw [written] at h
        cases h
        obtain ⟨after, rfl, payload⟩ := overwriteClientHello_spec written
        exact ⟨after, rfl, congrArg ClientHelloPayload.random payload,
          congrArg ClientHelloPayload.sessionId payload⟩
  · cases h

/-- A session id that ends in a signature of at most 16 bytes has 16 bytes before it. -/
theorem sessionId_halves {chp : ClientHelloPayload} {front timesig : Bytes} (split : chp.sessionId = front ++ timesig)
    (narrow : front.length ≤ 16) (short : timesig.length ≤ 16) :
    chp.sessionId.take 16 = front ∧ chp.timesig = timesig := by
  have total := chp.sessionId_length
  rw [split, List.length_append] at total
  have half : front.length = 16 := by omega
  unfold ClientHelloPayload.timesig
  rw [split, ← half, List.take_left, List.drop_left]
  exact ⟨rfl, List.take_of_length_le (by omega)⟩

theorem pskE_eq {chp : ClientHelloPayload} {pskE : Bytes} (length : pskE.length = 48)
    (random : chp.random = pskE.take 32) (front : chp.sessionId.take 16 = (pskE.drop 32).take 16) :
    chp.pskE = pskE ∧ chp.nonce = pskE.take 32 := by
  have rest : (pskE.drop 32).length ≤ 16 := by rw [List.length_drop]; omega
  have joined : chp.pskE = pskE := by
    unfold ClientHelloPayload.pskE
    rw [random, front, List.take_of_length_le rest, List.take_append_drop]
  exact ⟨joined, by rw [ClientHelloPayload.nonce, joined]⟩

theorem ownVersion_overwritten {version : UInt16} {ja3 : Option Ja3} (named : ownVersion rustls version = true)
    (own : ∀ fp, ja3 = some fp → ownVersion rustls fp.version = true) :
    ownVersion rustls ((ja3.map (·.version)).getD version) = true := by
  cases ja3 with
  | none => exact named
  | some fp => exact own fp rfl

/-- The server reads back what `connect` hid in its ClientHello, and accepts it: for every fingerprint whose
version the server lets pass, as long as rustls can read the message and it fits into one record. -/
theorem client_hello_authenticates (deps : Deps) (fpDeps : FingerprintDeps) (tls : TlsConfig)
    (faithful : Faithful deps.rustls fpDeps.getEncoding) (named : ownVersion deps.rustls tls.version = true)
    (key pskE rest : Bytes) (spec : FingerprintSpec) (length : pskE.length = 48) (tc ts : UInt64)
    (early : 2 * 60 ≤ ts.toNat) (late : ts.toNat + 2 * 60 < 2 ^ 64)
    (near : tc.toNat / 60 ≤ ts.toNat / 60 + 2 ∧ ts.toNat / 60 ≤ tc.toNat / 60 + 2) (msg : ClientMessage)
    (built : (Client.newWithFingerprint deps key spec).clientHello deps fpDeps tls pskE tc = .ok msg)
    (own : ∀ ja3, spec.ja3 = some ja3 → ownVersion deps.rustls ja3.version = true)
    (parses : msg.parses deps.rustls = true) (short : msg.encoded.length < maximumCiphertextLength)
    (Addr : Type) (replayFilterSize : Nat) :
    ∃ chp buf, readClientHello deps (msg.writeTls ++ rest) = .ok (some chp, buf, rest) ∧ chp.pskE = pskE ∧
      chp.timesig = (Client.newWithFingerprint deps key spec).totp.sign deps.blake2s 16 tc (pskE.take 32) ∧
      (Server.new deps Addr key replayFilterSize).totp.verify deps.blake2s 16 chp.nonce chp.timesig ts = true ∧
      (deps.noisePing (derivePsk deps key) pskE = true →
        authenticate deps (Server.new deps Addr key replayFilterSize) ts (msg.writeTls ++ rest) =
          .ok ⟨chp, buf, rest⟩) := by
  obtain ⟨hello, rfl, random, sessionId⟩ := clientHello_spec built
  have fits : (fpDeps.getEncoding hello).length < maximumCiphertextLength := short
  obtain ⟨buf, read⟩ := readClientHello_writeTls faithful (ownVersion_overwritten named own) parses fits rest
  obtain ⟨front, timesig⟩ := sessionId_halves sessionId (List.length_take_le ..) (List.length_take_le ..)
  obtain ⟨joined, nonce⟩ := pskE_eq length random front
  have range : (Server.new deps Addr key replayFilterSize).totp.InRange ts := by
    show 2 ≤ ts.toNat / 60 ∧ (ts.toNat / 60 + 2) * 60 < 2 ^ 64
    omega
  have verified : (Server.new deps Addr key replayFilterSize).totp.verify deps.blake2s 16 hello.nonce
      hello.timesig ts = true := by
    rw [nonce, timesig]
    exact Totp.verify_sign deps.blake2s 16 (pskE.take 32) (Nat.zero_lt_succ 59) (Nat.le_of_ble_eq_true rfl) range
      near.2 near.1
  refine ⟨hello.toClientHelloPayload, buf, read, joined, timesig, verified, ?_⟩
  intro ping
  have opened : deps.noisePing (Server.new deps Addr key replayFilterSize).key hello.pskE = true := by
    rw [joined]
    exact ping
  exact authenticate_of_hello deps read verified opened

/-! ### Concrete messages -/

/-- A record layer whose ClientHello is its random, its session id and its cipher suites. -/
def plainEncoding (hello : ClientHello) : Bytes :=
  hello.random ++ (hello.sessionId ++ hello.cipherSuites.flatMap fun suite => be16 suite.toNat)

theorem plainEncoding_length (hello : ClientHello) :
    (plainEncoding hello).length = 64 + 2 * hello.cipherSuites.length := by
  have codes (suites : List UInt16) : (suites.flatMap fun suite => be16 suite.toNat).length = 2 * suites.length := by
    rw [List.length_flatMap]
    simp [be16_length, Nat.mul_comm]
  simp only [plainEncoding, List.length_append, hello.random_length, hello.sessionId_length, codes]
  omega

def plainClientHello (om : OpaqueMessage) : Option Message :=
  if long : 64 ≤ om.payload.length then
    if om.typ = .handshake then
      some (.handshake .clientHello (.clientHello ⟨om.payload.take 32, (om.payload.drop 32).take 32,
        by rw [List.length_take]; omega, by rw [List.length_take, List.length_drop]; omega⟩))
    else none
  else none

theorem plainClientHello_encoding (hello : ClientHello) (version : ProtocolVersion) :
    plainClientHello ⟨.handshake, version, plainEncoding hello⟩ =
      some (.handshake .clientHello (.clientHello hello.toClientHelloPayload)) := by
  have long : 64 ≤ (plainEncoding hello).length := by
    rw [plainEncoding_length]
    omega
  obtain ⟨⟨random, sessionId, random_length, sessionId_length⟩, suites, extensions⟩ := hello
  have first (rest : Bytes) : (random ++ rest).take 32 = random := by rw [← random_length, List.take_left]
  have second (rest : Bytes) : ((random ++ (sessionId ++ rest)).drop 32).take 32 = sessionId := by
    rw [← random_length, List.drop_left, random_length, ← sessionId_length, List.take_left]
  unfold plainClientHello
  rw [dif_pos long, if_pos rfl]
  simp only [plainEncoding, first, second]

theorem plainEncoding_faithful : Faithful (Rustls.registered plainClientHello) plainEncoding where
  contentType := rfl
  encoded hello empty := by
    have length := plainEncoding_length hello
    rw [empty, List.length_nil] at length
    omega
  decoded hello version msg read := Option.some.inj (read.symm.trans (plainClientHello_encoding hello version))

def checksum (msg : Bytes) : Bytes := msg.foldl (fun sum byte => 31 * sum + byte) 7 :: List.replicate 31 0

def plainDeps : Deps := ⟨Rustls.registered plainClientHello, checksum, fun _ _ => true, 0⟩

def plainFpDeps : FingerprintDeps :=
  ⟨fun value => value &&& 0x0f0f = 0x0a0a, fun _ => 0x1a1a, id, id, plainEncoding⟩

def plainTls : TlsConfig := ⟨0x0301, [0x1301], fun _ => [.namedGroups [0x001d], .supportedVersions [0x0304]]⟩

/-- A fingerprint that names `version` and `ciphers`. -/
def fingerprintOf (version : UInt16) (ciphers : List UInt16) : FingerprintSpec :=
  { FingerprintSpec.new with ja3 := some ⟨version, ciphers, [0x0a0a, 0x000a], [0x0a0a, 0x001d], [0x00]⟩ }

def plainHello (version : UInt16) (ciphers : List UInt16) : Except String ClientMessage :=
  (Client.newWithFingerprint plainDeps [0x6b] (fingerprintOf version ciphers)).clientHello plainDeps plainFpDeps
    plainTls (List.replicate 48 0x07) 600

theorem plainHello_eq (version : UInt16) (ciphers : List UInt16) :
    ∃ hello, plainHello version ciphers = .ok ⟨version, .clientHello hello (plainEncoding hello)⟩ ∧
      hello.cipherSuites = ciphers := by
  exact ⟨_, rfl, rfl⟩

theorem client_hello_authenticates_tls12 :
    ∃ msg, plainHello 0x0303 [0x1301, 0x1302] = .ok msg ∧
      ∃ chp buf, readClientHello plainDeps (msg.writeTls ++ [0x14]) = .ok (some chp, buf, [0x14]) ∧
        chp.pskE = List.replicate 48 0x07 ∧
        chp.timesig = (Client.newWithFingerprint plainDeps [0x6b] (fingerprintOf 0x0303 [0x1301, 0x1302])).totp.sign
          plainDeps.blake2s 16 600 (List.replicate 32 0x07) ∧
        (Server.new plainDeps Unit [0x6b] 2).totp.verify plainDeps.blake2s 16 chp.nonce chp.timesig 750 = true ∧
        authenticate plainDeps (Server.new plainDeps Unit [0x6b] 2) 750 (msg.writeTls ++ [0x14]) =
          .ok ⟨chp, buf, [0x14]⟩ := by
  obtain ⟨hello, built, ciphers⟩ := plainHello_eq 0x0303 [0x1301, 0x1302]
  have short : (plainEncoding hello).length < maximumCiphertextLength := by
    rw [plainEncoding_length, ciphers]
    decide
  have parses :
      (plainClientHello ⟨.handshake, plainDeps.rustls.version 0x0303, plainEncoding hello⟩).isSome = true := by
    rw [plainClientHello_encoding]
    rfl
  obtain ⟨chp, buf, read, pskE, timesig, verified, accepted⟩ :=
    client_hello_authenticates plainDeps plainFpDeps plainTls plainEncoding_faithful rfl [0x6b]
      (List.replicate 48 0x07) [0x14] (fingerprintOf 0x0303 [0x1301, 0x1302]) rfl 600 750 (by decide) (by decide)
      (by decide) _ built (fun ja3 same => by cases same; rfl) parses short Unit 2
  exact ⟨_, built, chp, buf, read, pskE, timesig, verified, accepted rfl⟩

/-- Two fingerprints under which the server finds no ClientHello at all. -/
theorem client_hello_unread :
    Faithful plainDeps.rustls plainFpDeps.getEncoding ∧
    (∃ msg rest, plainHello 0x1234 [0x1301] = .ok msg ∧
      readClientHello plainDeps msg.writeTls = .ok (none, RawVec.empty, rest)) ∧
    (∃ msg rest, plainHello 0x0303 (List.replicate 8192 0x1301) = .ok msg ∧
      readClientHello plainDeps msg.writeTls = .ok (none, RawVec.empty, rest)) := by
  refine ⟨plainEncoding_faithful, ?_, ?_⟩
  · obtain ⟨hello, built, _⟩ := plainHello_eq 0x1234 [0x1301]
    obtain ⟨rest, unread⟩ :=
      readClientHello_writeTls_rejected plainDeps 0x1234 hello (plainEncoding_faithful.encoded hello) (Or.inl rfl)
    exact ⟨_, rest, built, unread⟩
  · obtain ⟨hello, built, ciphers⟩ := plainHello_eq 0x0303 (List.replicate 8192 0x1301)
    have long : maximumCiphertextLength ≤ (plainEncoding hello).length := by
      rw [plainEncoding_length, ciphers, List.length_replicate]
      decide
    obtain ⟨rest, unread⟩ :=
      readClientHello_writeTls_rejected plainDeps 0x0303 hello (plainEncoding_faithful.encoded hello) (Or.inr long)
    exact ⟨_, rest, built, unread⟩

end NoisyShuttle.Tunnel
