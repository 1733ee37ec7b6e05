import NoisyShuttle.Tunnel.Tls

/-!
# The TLS 1.2 handshake and the hand-over to Noise

Two loops have to stop at one record. The server copies the camouflage server's records to the client
until the first one after the ChangeCipherSpec; the client gives the same records to rustls. What the
client reads next is the server's first Noise message.
-/

namespace NoisyShuttle.Tunnel

def handshakeCode : UInt8 := 0x16
def changeCipherSpecCode : UInt8 := 0x14

/-! ### The server's copy loop -/

/-- `write_all` on a socket that has taken `written`. `fails` says after how many bytes in all a write fails, and how;
if it says nothing, none fails. -/
def writeAll (fails : Option (Nat × IoError)) (written data : Bytes) : Except IoError Unit × Bytes :=
  match fails with
  | none => (.ok (), written ++ data)
  | some (n, err) =>
    if written.length + data.length ≤ n then (.ok (), written ++ data)
    else (.error err, written ++ data.take (n - written.length))

/-- One call of `copy_until_tls12_handshake_finished`: its result, what it wrote, what it left. -/
structure Copied where
  result : Except IoError Unit
  written : Bytes
  unread : Bytes

def invalidTlsState : IoError := ⟨.invalidData, "Invalid TLS state"⟩

/-- The loop, with the flag `has_seen_change_cipher_spec` and what has been written. -/
def copyRecords (fails : Option (Nat × IoError)) (seenCcs : Bool) (written stream : Bytes) : Copied :=
  match stream with
  | typ :: vhi :: vlo :: lhi :: llo :: rest =>
    match writeAll fails written [typ, vhi, vlo, lhi, llo] with
    | (.error err, written) => ⟨.error err, written, rest⟩
    | (.ok (), written) =>
      match _took : readExact (ofBe16 lhi llo) rest with
      | none => ⟨.error earlyEof, written, []⟩
      | some (data, rest) =>
        match writeAll fails written data with
        | (.error err, written) => ⟨.error err, written, rest⟩
        | (.ok (), written) =>
          if typ ≠ handshakeCode ∧ typ ≠ changeCipherSpecCode then ⟨.error invalidTlsState, written, rest⟩
          else if typ ≠ handshakeCode ∧ !seenCcs then copyRecords fails true written rest
          else if seenCcs then ⟨.ok (), written, rest⟩
          else copyRecords fails seenCcs written rest
  | _ => ⟨.error earlyEof, written, []⟩
termination_by stream.length
decreasing_by
  all_goals
    have shorter := congrArg List.length (readExact_eq_some.mp _took).1
    simp only [List.length_append, List.length_cons] at *
    omega

/-- To a socket that takes all it is given. -/
def copyUntilTls12HandshakeFinished (stream : Bytes) : Copied := copyRecords none false [] stream

/-- How the writes to the two sockets of `accept` fail. -/
structure Faults where
  client : Option (Nat × IoError)
  camouflage : Option (Nat × IoError)

def Faults.none : Faults := ⟨Option.none, Option.none⟩

/-- The two copies are joined: both run to their end before the results are looked at. -/
def relayUntilTls12HandshakeFinished (faults : Faults) (toCamouflage toClient inbound outbound : Bytes) :
    Except IoError Unit × Copied × Copied :=
  let a := copyRecords faults.camouflage false toCamouflage inbound
  let b := copyRecords faults.client false toClient outbound
  (a.result >>= fun _ => b.result, a, b)

/-- The server's Noise message, 48 bytes and random padding, in a record of application data. -/
def noiseReply (eEe padding : Bytes) : Bytes :=
  [0x17, 0x03, 0x03, 0x00, 0x30 + UInt8.ofNat padding.length] ++ (eEe ++ padding)

/-- What `accept` writes to the client after a ServerHello of TLS 1.2. -/
def answerTls12 (inbound outbound eEe padding : Bytes) : Except IoError Unit × Bytes :=
  match relayUntilTls12HandshakeFinished .none [] [] inbound outbound with
  | (.error err, _, toClient) => (.error err, toClient.written)
  | (.ok (), _, toClient) => (.ok (), toClient.written ++ noiseReply eEe padding)

/-! ### The client's loop -/

/-- A rustls client connection with states in `σ`. Writing to a vector, it gets rid of something
each time it has something to send. -/
structure ClientConnection (σ : Type) extends Rustls where
  wantsRead : σ → Bool
  pending : σ → Nat
  writeTls : σ → Bytes × σ
  readTls : σ → Bytes → Option (Nat × σ)
  processNewPackets : σ → Except String σ
  contentType_changeCipherSpec : contentType changeCipherSpecCode = .changeCipherSpec
  contentType_handshake : contentType handshakeCode = .handshake
  writeTls_pending : ∀ conn, 0 < pending conn → pending (writeTls conn).2 < pending conn

inductive HandshakePanic where
  | outOfRange | readTls | feedZero | notHandshake
  deriving DecidableEq

inductive Handshaken (σ : Type) where
  | done (conn : σ) (sent unread : Bytes)
  | failed (err : IoError)
  | panicked (why : HandshakePanic)

section
variable {σ : Type} (tls : ClientConnection σ)

def ClientConnection.wantsWrite (conn : σ) : Bool := 0 < tls.pending conn

/-- The inner loop: rustls takes a part of a record at each call. -/
def feed (conn : σ) (record : Bytes) : Except HandshakePanic σ :=
  match record with
  | [] => .ok conn
  | byte :: rest =>
    match tls.readTls conn (byte :: rest) with
    | none => .error .readTls
    | some (0, _) => .error .feedZero
    | some (n + 1, conn) => feed conn (rest.drop n)
termination_by record.length
decreasing_by
  simp only [List.length_drop, List.length_cons]
  omega

/-- The loop of `tls12_handshake`. The buffer grows with what rustls writes into it. -/
def tls12Loop (debugAssertions stopAfterServerCcs : Bool) (conn : σ) (bufLen : Nat) (seenCcs : Bool)
    (sent stream : Bytes) : Handshaken σ :=
  if _more : tls.wantsWrite conn then
    tls12Loop debugAssertions stopAfterServerCcs (tls.writeTls conn).2 (max bufLen (tls.writeTls conn).1.length)
      seenCcs (sent ++ (tls.writeTls conn).1) stream
  else if tls.wantsRead conn then
    match stream with
    | typ :: vhi :: vlo :: lhi :: llo :: rest =>
      if bufLen < tlsRecordHeaderLength + ofBe16 lhi llo then .panicked .outOfRange
      else match _took : readExact (ofBe16 lhi llo) rest with
        | none => .failed earlyEof
        | some (data, rest) =>
          match feed tls conn (typ :: vhi :: vlo :: lhi :: llo :: data) with
          | .error why => .panicked why
          | .ok conn =>
            match tls.processNewPackets conn with
            | .error err => .failed ⟨.invalidData, "TLS handshake state: " ++ err⟩
            | .ok conn =>
              if tls.contentType typ = .changeCipherSpec then
                if stopAfterServerCcs then .done conn sent rest
                else tls12Loop debugAssertions stopAfterServerCcs conn bufLen true sent rest
              else if debugAssertions && typ ≠ handshakeCode then .panicked .notHandshake
              else if seenCcs then .done conn sent rest
              else tls12Loop debugAssertions stopAfterServerCcs conn bufLen seenCcs sent rest
    | _ => .failed earlyEof
  else .done conn sent stream
termination_by (stream.length, tls.pending conn)
decreasing_by
  · exact Prod.Lex.right _ (tls.writeTls_pending conn (of_decide_eq_true _more))
  all_goals
    apply Prod.Lex.left
    have shorter := congrArg List.length (readExact_eq_some.mp _took).1
    simp only [List.length_append, List.length_cons] at *
    omega

def tls12Handshake (debugAssertions stopAfterServerCcs : Bool) (conn : σ) (stream : Bytes) : Handshaken σ :=
  tls12Loop tls debugAssertions stopAfterServerCcs conn (tlsRecordHeaderLength + maximumCiphertextLength) false []
    stream

/-- `connect` reads the Noise message into a new vector. -/
def readPong (rustls : Rustls) (uninit : UInt8) (stream : Bytes) : Except IoError (Bytes × Bytes) :=
  match readTlsMessage rustls uninit stream (RawVec.empty.reserveExact uninit (5 + 48 + 24)) with
  | .error err => .error err
  | .ok (.error _, _, _) => .error ⟨.invalidData, "First data frame not noise"⟩
  | .ok (.ok (), pong, rest) =>
    if pong.len < 5 + 48 then
      .error ⟨.invalidData, "Noise handshake failed due to message length shorter than expected"⟩
    else .ok ((pong.contents.drop 5).take 48, rest)

end

/-! ### Records -/

structure TlsRecord where
  typ : UInt8
  vhi : UInt8
  vlo : UInt8
  payload : Bytes
  fits : payload.length ≤ maximumCiphertextLength

namespace TlsRecord

def bytes (r : TlsRecord) : Bytes := [r.typ, r.vhi, r.vlo] ++ (be16 r.payload.length ++ r.payload)

theorem small (r : TlsRecord) : r.payload.length < 65536 :=
  Nat.lt_of_le_of_lt r.fits (by decide)

theorem bytes_append (r : TlsRecord) (rest : Bytes) : r.bytes ++ rest =
    r.typ :: r.vhi :: r.vlo :: UInt8.ofNat (r.payload.length / 256) :: UInt8.ofNat r.payload.length ::
      (r.payload ++ rest) := rfl

theorem readExact_payload (r : TlsRecord) (rest : Bytes) :
    readExact (ofBe16 (UInt8.ofNat (r.payload.length / 256)) (UInt8.ofNat r.payload.length)) (r.payload ++ rest) =
      some (r.payload, rest) := by
  rw [ofBe16_be16 r.small, readExact_append]

end TlsRecord

/-! ### The loops at one record -/

theorem writeAll_taken {fails : Option (Nat × IoError)} {written data after : Bytes} {result : Except IoError Unit}
    (h : writeAll fails written data = (result, after)) :
    ∃ part, after = written ++ part ∧ part <+: data ∧ (result = .ok () → part = data) ∧
      ∀ err, result = .error err → ∃ n, fails = some (n, err) := by
  unfold writeAll at h
  split at h
  · cases h
    exact ⟨data, rfl, List.prefix_refl _, fun _ => rfl, by simp⟩
  · split at h <;> cases h
    · exact ⟨data, rfl, List.prefix_refl _, fun _ => rfl, by simp⟩
    · refine ⟨_, rfl, List.take_prefix .., by simp, ?_⟩
      intro err same
      cases same
      exact ⟨_, rfl⟩

theorem copyRecords_record (r : TlsRecord) (seenCcs : Bool) (written rest : Bytes) :
    copyRecords none seenCcs written (r.bytes ++ rest) =
      if r.typ ≠ handshakeCode ∧ r.typ ≠ changeCipherSpecCode then
        ⟨.error invalidTlsState, written ++ r.bytes, rest⟩
      else if r.typ ≠ handshakeCode ∧ !seenCcs then copyRecords none true (written ++ r.bytes) rest
      else if seenCcs then ⟨.ok (), written ++ r.bytes, rest⟩
      else copyRecords none seenCcs (written ++ r.bytes) rest := by
  rw [TlsRecord.bytes_append, copyRecords]
  dsimp only [writeAll]
  split
  · next short =>
    rw [r.readExact_payload] at short
    cases short
  · next data left took =>
    rw [r.readExact_payload, Option.some.injEq, Prod.mk.injEq] at took
    obtain ⟨rfl, rfl⟩ := took
    rw [List.append_assoc]
    rfl

section
variable {σ : Type} (tls : ClientConnection σ)

/-- The connection after all that rustls has to send is written out. -/
def flush (conn : σ) : σ :=
  if _more : tls.wantsWrite conn then flush (tls.writeTls conn).2 else conn
termination_by tls.pending conn
decreasing_by exact tls.writeTls_pending conn (of_decide_eq_true _more)

/-- rustls takes each of the records and wants to read, once it has nothing to send, until the last
of them. -/
def Accepts (conn : σ) : List TlsRecord → Prop
  | [] => True
  | r :: later => tls.wantsRead (flush tls conn) = true ∧ ∃ fed next,
      feed tls (flush tls conn) r.bytes = .ok fed ∧ tls.processNewPackets fed = .ok next ∧ Accepts next later

variable {tls} {conn : σ} {r : TlsRecord} {later : List TlsRecord} {bufLen : Nat} {sent : Bytes}
  (debugAssertions stop : Bool)

theorem flush_wantsWrite (conn : σ) : tls.wantsWrite (flush tls conn) = false := by
  fun_induction flush tls conn with
  | case1 conn more ih => exact ih
  | case2 conn none => exact Bool.eq_false_iff.mpr none

theorem tls12Loop_flush (seenCcs : Bool) (conn : σ) (bufLen : Nat) (sent : Bytes) : ∃ len out, bufLen ≤ len ∧
    ∀ stream, tls12Loop tls debugAssertions stop conn bufLen seenCcs sent stream =
      tls12Loop tls debugAssertions stop (flush tls conn) len seenCcs out stream := by
  fun_induction flush tls conn generalizing bufLen sent with
  | case1 conn more ih =>
    obtain ⟨len, out, longer, same⟩ :=
      ih (max bufLen (tls.writeTls conn).1.length) (sent ++ (tls.writeTls conn).1)
    refine ⟨len, out, by omega, ?_⟩
    intro stream
    rw [tls12Loop.eq_def, dif_pos more]
    exact same stream
  | case2 conn none => exact ⟨bufLen, sent, Nat.le_refl _, fun _ => rfl⟩

theorem tls12Loop_record {fed next : σ} (seenCcs : Bool) (rest : Bytes) (idle : tls.wantsWrite conn = false)
    (reads : tls.wantsRead conn = true) (room : tlsRecordHeaderLength + maximumCiphertextLength ≤ bufLen)
    (taken : feed tls conn r.bytes = .ok fed) (accepted : tls.processNewPackets fed = .ok next) :
    tls12Loop tls debugAssertions stop conn bufLen seenCcs sent (r.bytes ++ rest) =
      if tls.contentType r.typ = .changeCipherSpec then
        if stop then .done next sent rest else tls12Loop tls debugAssertions stop next bufLen true sent rest
      else if debugAssertions && r.typ ≠ handshakeCode then .panicked .notHandshake
      else if seenCcs then .done next sent rest
      else tls12Loop tls debugAssertions stop next bufLen seenCcs sent rest := by
  have size := ofBe16_be16 r.small
  have fits := r.fits
  rw [TlsRecord.bytes_append, tls12Loop, dif_neg (by simp [idle]), if_pos reads, if_neg (by omega)]
  split
  · next short =>
    rw [r.readExact_payload] at short
    cases short
  · next data left took =>
    rw [r.readExact_payload, Option.some.injEq, Prod.mk.injEq] at took
    obtain ⟨rfl, rfl⟩ := took
    have input : r.typ :: r.vhi :: r.vlo :: UInt8.ofNat (r.payload.length / 256) ::
        UInt8.ofNat r.payload.length :: r.payload = r.bytes := rfl
    rw [input, taken]
    dsimp only
    rw [accepted]

/-- One accepted record, with what rustls sends before it. -/
theorem tls12Loop_accepts (seenCcs : Bool) (sent : Bytes)
    (room : tlsRecordHeaderLength + maximumCiphertextLength ≤ bufLen) (accepted : Accepts tls conn (r :: later)) :
    ∃ next len out, tlsRecordHeaderLength + maximumCiphertextLength ≤ len ∧ Accepts tls next later ∧
      ∀ rest, tls12Loop tls debugAssertions stop conn bufLen seenCcs sent (r.bytes ++ rest) =
        if tls.contentType r.typ = .changeCipherSpec then
          if stop then .done next out rest else tls12Loop tls debugAssertions stop next len true out rest
        else if debugAssertions && r.typ ≠ handshakeCode then .panicked .notHandshake
        else if seenCcs then .done next out rest
        else tls12Loop tls debugAssertions stop next len seenCcs out rest := by
  obtain ⟨reads, fed, next, taken, processed, more⟩ := accepted
  obtain ⟨len, out, longer, same⟩ := tls12Loop_flush debugAssertions stop seenCcs conn bufLen sent
  refine ⟨next, len, out, by omega, more, ?_⟩
  intro rest
  rw [same]
  exact tls12Loop_record debugAssertions stop seenCcs rest (flush_wantsWrite conn) reads (by omega) taken processed

/-! ### The loops at a flight of records -/

/-- The records of a TLS 1.2 server after its ServerHello. -/
structure ServerFlight where
  handshakes : List TlsRecord
  ccs : TlsRecord
  finished : TlsRecord
  handshakes_typ : ∀ r ∈ handshakes, r.typ = handshakeCode
  ccs_typ : ccs.typ = changeCipherSpecCode
  finished_typ : finished.typ = handshakeCode

namespace ServerFlight

def records (flight : ServerFlight) : List TlsRecord := flight.handshakes ++ [flight.ccs, flight.finished]

def bytes (flight : ServerFlight) : Bytes := (flight.records.map TlsRecord.bytes).flatten

theorem bytes_append (flight : ServerFlight) (rest : Bytes) : flight.bytes ++ rest =
    (flight.handshakes.map TlsRecord.bytes).flatten ++ (flight.ccs.bytes ++ (flight.finished.bytes ++ rest)) := by
  simp [bytes, records]

end ServerFlight

/-- A copy that has added a part of `stream` to what was written, and has left the rest of it if all went well. -/
def Copied.Forwards (copied : Copied) (written stream : Bytes) : Prop :=
  ∃ part, copied.written = written ++ part ∧ part <+: stream ∧
    (copied.result = .ok () → stream = part ++ copied.unread)

theorem Copied.Forwards.behind {copied : Copied} {written record left : Bytes}
    (h : copied.Forwards (written ++ record) left) : copied.Forwards written (record ++ left) := by
  obtain ⟨part, all, within, done⟩ := h
  refine ⟨record ++ part, all.trans (List.append_assoc ..), (List.prefix_append_right_inj _).mpr within, ?_⟩
  intro ok
  rw [List.append_assoc, ← done ok]

theorem writeAll_record {fails : Option (Nat × IoError)} {typ vhi vlo lhi llo : UInt8}
    {written header data left after rest : Bytes}
    (headed : writeAll fails written [typ, vhi, vlo, lhi, llo] = (.ok (), header))
    (took : readExact (ofBe16 lhi llo) rest = some (data, left))
    (filled : writeAll fails header data = (.ok (), after)) :
    typ :: vhi :: vlo :: lhi :: llo :: rest = [typ, vhi, vlo, lhi, llo] ++ data ++ left ∧
      after = written ++ ([typ, vhi, vlo, lhi, llo] ++ data) := by
  obtain ⟨part, rfl, -, all, -⟩ := writeAll_taken headed
  obtain ⟨more, rfl, -, whole, -⟩ := writeAll_taken filled
  obtain ⟨rfl, -⟩ := readExact_eq_some.mp took
  rw [all rfl, whole rfl]
  exact ⟨rfl, List.append_assoc ..⟩

theorem copyRecords_forwards (fails : Option (Nat × IoError)) (seenCcs : Bool) (written stream : Bytes) :
    (copyRecords fails seenCcs written stream).Forwards written stream := by
  fun_induction copyRecords fails seenCcs written stream with
  | case1 seenCcs written typ vhi vlo lhi llo rest err after cut =>
    obtain ⟨part, rfl, within, -⟩ := writeAll_taken cut
    exact ⟨part, rfl, within.trans (List.prefix_append [typ, vhi, vlo, lhi, llo] rest), by simp⟩
  | case2 seenCcs written typ vhi vlo lhi llo rest after headed short =>
    obtain ⟨part, rfl, within, -⟩ := writeAll_taken headed
    exact ⟨part, rfl, within.trans (List.prefix_append [typ, vhi, vlo, lhi, llo] rest), by simp⟩
  | case3 seenCcs written typ vhi vlo lhi llo rest header headed data left took err after cut =>
    obtain ⟨rfl, -⟩ := readExact_eq_some.mp took
    obtain ⟨part, rfl, -, all, -⟩ := writeAll_taken headed
    obtain ⟨more, rfl, within, -⟩ := writeAll_taken cut
    obtain rfl := all rfl
    have first : Copied.Forwards ⟨.error err, written ++ [typ, vhi, vlo, lhi, llo] ++ more, left⟩
        (written ++ [typ, vhi, vlo, lhi, llo]) (data ++ left) :=
      ⟨more, rfl, within.trans (List.prefix_append data left), by simp⟩
    exact first.behind
  | case4 seenCcs written typ vhi vlo lhi llo rest header headed data left took after filled foreign =>
    obtain ⟨layout, rfl⟩ := writeAll_record headed took filled
    rw [layout]
    exact ⟨[typ, vhi, vlo, lhi, llo] ++ data, rfl, List.prefix_append .., by simp⟩
  | case5 seenCcs written typ vhi vlo lhi llo rest header headed data left took after filled own first ih =>
    obtain ⟨layout, rfl⟩ := writeAll_record headed took filled
    rw [layout]
    exact ih.behind
  | case6 written typ vhi vlo lhi llo rest header headed data left took after filled own first =>
    obtain ⟨layout, rfl⟩ := writeAll_record headed took filled
    rw [layout]
    exact ⟨[typ, vhi, vlo, lhi, llo] ++ data, rfl, List.prefix_append .., fun _ => rfl⟩
  | case7 seenCcs written typ vhi vlo lhi llo rest header headed data left took after filled own first seen ih =>
    obtain ⟨layout, rfl⟩ := writeAll_record headed took filled
    rw [layout]
    exact ih.behind
  | case8 seenCcs written stream short => exact ⟨[], by simp, List.nil_prefix, by simp⟩

theorem copyRecords_handshakes {handshakes : List TlsRecord} (typ : ∀ r ∈ handshakes, r.typ = handshakeCode)
    (written rest : Bytes) : copyRecords none false written ((handshakes.map TlsRecord.bytes).flatten ++ rest) =
      copyRecords none false (written ++ (handshakes.map TlsRecord.bytes).flatten) rest := by
  induction handshakes generalizing written with
  | nil => simp
  | cons r handshakes ih =>
    obtain ⟨first, others⟩ := List.forall_mem_cons.mp typ
    rw [List.map_cons, List.flatten_cons, List.append_assoc, copyRecords_record, if_neg (by simp [first]),
      if_neg (by simp [first]), if_neg (by decide), ih others, List.append_assoc]

theorem copyRecords_flight (flight : ServerFlight) (written rest : Bytes) :
    copyRecords none false written (flight.bytes ++ rest) = ⟨.ok (), written ++ flight.bytes, rest⟩ := by
  have other : changeCipherSpecCode ≠ handshakeCode := by decide
  have whole := flight.bytes_append []
  rw [List.append_nil, List.append_nil] at whole
  rw [flight.bytes_append, copyRecords_handshakes flight.handshakes_typ,
    copyRecords_record, if_neg (by simp [flight.ccs_typ]), if_pos (by simp [flight.ccs_typ, other]),
    copyRecords_record, if_neg (by simp [flight.finished_typ]), if_neg (by simp), if_pos rfl, whole]
  simp only [List.append_assoc]

theorem copyUntilTls12HandshakeFinished_flight (flight : ServerFlight) (rest : Bytes) :
    copyUntilTls12HandshakeFinished (flight.bytes ++ rest) = ⟨.ok (), flight.bytes, rest⟩ :=
  copyRecords_flight flight [] rest

theorem tls12Loop_handshakes {handshakes : List TlsRecord} (typ : ∀ r ∈ handshakes, r.typ = handshakeCode)
    (sent : Bytes) (room : tlsRecordHeaderLength + maximumCiphertextLength ≤ bufLen)
    (accepted : Accepts tls conn (handshakes ++ later)) :
    ∃ next len out, tlsRecordHeaderLength + maximumCiphertextLength ≤ len ∧ Accepts tls next later ∧
      ∀ rest, tls12Loop tls debugAssertions stop conn bufLen false sent
          ((handshakes.map TlsRecord.bytes).flatten ++ rest) =
        tls12Loop tls debugAssertions stop next len false out rest := by
  induction handshakes generalizing conn bufLen sent with
  | nil => exact ⟨conn, bufLen, sent, room, accepted, fun _ => rfl⟩
  | cons r handshakes ih =>
    obtain ⟨first, others⟩ := List.forall_mem_cons.mp typ
    obtain ⟨next, len, out, large, more, step⟩ := tls12Loop_accepts debugAssertions stop false sent room accepted
    obtain ⟨last, size, all, enough, remain, run⟩ := ih others out large more
    refine ⟨last, size, all, enough, remain, ?_⟩
    intro rest
    have plain : tls.contentType r.typ ≠ .changeCipherSpec := by
      rw [first, tls.contentType_handshake]
      decide
    rw [List.map_cons, List.flatten_cons, List.append_assoc, step, if_neg plain, if_neg (by simp [first]),
      if_neg (by decide)]
    exact run rest

theorem tls12Handshake_flight (flight : ServerFlight) (accepted : Accepts tls conn flight.records) :
    ∃ after sent, ∀ rest, tls12Handshake tls debugAssertions false conn (flight.bytes ++ rest) =
      .done after sent rest := by
  obtain ⟨first, len, out, room, more, handshakes⟩ := tls12Loop_handshakes debugAssertions false
    flight.handshakes_typ [] (Nat.le_refl _) accepted
  obtain ⟨second, len, out, room, more, ccs⟩ := tls12Loop_accepts debugAssertions false false out room more
  obtain ⟨third, len, out, room, more, finished⟩ := tls12Loop_accepts debugAssertions false true out room more
  refine ⟨third, out, ?_⟩
  intro rest
  have plain : tls.contentType flight.finished.typ ≠ .changeCipherSpec := by
    rw [flight.finished_typ, tls.contentType_handshake]
    decide
  have changed : tls.contentType flight.ccs.typ = .changeCipherSpec := by
    rw [flight.ccs_typ, tls.contentType_changeCipherSpec]
  rw [tls12Handshake, flight.bytes_append, handshakes, ccs, if_pos changed, if_neg (by decide), finished,
    if_neg plain, if_neg (by simp [flight.finished_typ]), if_pos rfl]

theorem headerAccepted_noise (rustls : Rustls) {n : Nat} (short : n < 256) :
    headerAccepted rustls [0x17, 0x03, 0x03, 0x00, UInt8.ofNat n] = true := by
  have size : ofBe16 0x00 (UInt8.ofNat n) = n := by
    rw [ofBe16, UInt8.toNat_ofNat']
    simp only [UInt8.toNat_zero]
    omega
  refine headerAccepted_tls rustls 0x03 ?_ ?_ fun _ => rustls.contentType_applicationData
  · intro code unknown
    rw [rustls.contentType_applicationData] at unknown
    cases unknown
  · rw [size]
    exact Nat.lt_trans short (by decide)

theorem readPong_noiseReply (rustls : Rustls) (uninit : UInt8) {eEe padding : Bytes} (whole : eEe.length = 48)
    (short : padding.length ≤ 24) (rest : Bytes) :
    readPong rustls uninit (noiseReply eEe padding ++ rest) = .ok (eEe, rest) := by
  have code : (0x30 : UInt8) + UInt8.ofNat padding.length = UInt8.ofNat (eEe ++ padding).length := by
    rw [List.length_append, whole]
    exact (UInt8.ofNat_add 48 padding.length).symm
  have size : ofBe16 0x00 (UInt8.ofNat (eEe ++ padding).length) = (eEe ++ padding).length := by
    rw [ofBe16, UInt8.toNat_ofNat', List.length_append, whole]
    simp only [UInt8.toNat_zero]
    omega
  have accepted := headerAccepted_noise rustls (n := (eEe ++ padding).length)
    (by rw [List.length_append]; omega)
  obtain ⟨pong, read, contents⟩ := readTlsMessage_whole rustls uninit rest
    (RawVec.empty.reserveExact uninit (5 + 48 + 24)) accepted size
  have long : pong.len = 5 + (48 + padding.length) := by
    rw [← RawVec.length_contents, contents]
    simp only [List.length_cons, List.length_append, whole]
    omega
  have layout : noiseReply eEe padding ++ rest =
      0x17 :: 0x03 :: 0x03 :: 0x00 :: UInt8.ofNat (eEe ++ padding).length :: ((eEe ++ padding) ++ rest) := by
    rw [noiseReply, code]
    rfl
  rw [layout, readPong, read]
  dsimp only
  rw [if_neg (by omega), contents]
  simp only [List.drop_succ_cons, List.drop_zero]
  rw [← whole, List.take_left]

end

/-- The records the camouflage server sends after its ServerHello reach the client as they are, the
server reads nothing after them and the client's loop ends there; then comes the Noise message. -/
theorem tls12_handover {σ : Type} (tls : ClientConnection σ) (debugAssertions : Bool) (uninit : UInt8) (conn : σ)
    (flight : ServerFlight) (accepted : Accepts tls conn flight.records) (trailing : Bytes) :
    copyUntilTls12HandshakeFinished (flight.bytes ++ trailing) = ⟨.ok (), flight.bytes, trailing⟩ ∧
      (∃ after sent, ∀ later, tls12Handshake tls debugAssertions false conn (flight.bytes ++ later) =
        .done after sent later) ∧
      ∀ inbound eEe padding, (copyUntilTls12HandshakeFinished inbound).result = .ok () → eEe.length = 48 →
        padding.length ≤ 24 →
        answerTls12 inbound (flight.bytes ++ trailing) eEe padding = (.ok (), flight.bytes ++ noiseReply eEe padding) ∧
          ∀ later, readPong tls.toRustls uninit (noiseReply eEe padding ++ later) = .ok (eEe, later) := by
  have copied := copyUntilTls12HandshakeFinished_flight flight trailing
  refine ⟨copied, tls12Handshake_flight debugAssertions flight accepted, ?_⟩
  intro inbound eEe padding answered whole short
  refine ⟨?_, readPong_noiseReply tls.toRustls uninit whole short⟩
  unfold copyUntilTls12HandshakeFinished at copied answered
  unfold answerTls12 relayUntilTls12HandshakeFinished
  dsimp only [Faults.none]
  rw [copied, answered]
  rfl

/-- A connection that answers each record with one of its own and takes 4096 bytes at a time. -/
def ClientConnection.answering : ClientConnection Nat where
  toRustls := Rustls.registered fun _ => none
  wantsRead _ := true
  pending conn := conn
  writeTls conn := ([0x16, 0x03, 0x03, 0x00, 0x00], conn - 1)
  readTls conn offered := some (min 4096 offered.length, conn)
  processNewPackets conn := .ok (conn + 1)
  contentType_changeCipherSpec := rfl
  contentType_handshake := rfl
  writeTls_pending _ more := Nat.sub_lt more Nat.one_pos

theorem feed_answering (conn : Nat) (record : Bytes) : feed .answering conn record = .ok conn := by
  fun_induction feed ClientConnection.answering conn record with
  | case1 conn => rfl
  | case2 conn byte rest refused => cases refused
  | case3 conn byte rest after zero =>
    simp [ClientConnection.answering] at zero
  | case4 conn byte rest n after taken ih =>
    obtain ⟨-, same⟩ := Prod.mk.inj (Option.some.inj taken)
    rw [ih]
    exact congrArg Except.ok same.symm

theorem accepts_answering (conn : Nat) (records : List TlsRecord) : Accepts .answering conn records := by
  induction records generalizing conn with
  | nil => trivial
  | cons r later ih => exact ⟨rfl, _, _, feed_answering _ _, rfl, ih _⟩

def ServerFlight.shortest : ServerFlight where
  handshakes := [⟨handshakeCode, 0x03, 0x03, [0x0e, 0x00, 0x00, 0x00], by decide⟩]
  ccs := ⟨changeCipherSpecCode, 0x03, 0x03, [0x01], by decide⟩
  finished := ⟨handshakeCode, 0x03, 0x03, List.replicate 40 0xab, by decide⟩
  handshakes_typ := by decide
  ccs_typ := rfl
  finished_typ := rfl

theorem tls12_handover_shortest :
    Accepts .answering 1 ServerFlight.shortest.records ∧
      copyUntilTls12HandshakeFinished (ServerFlight.shortest.bytes ++ [0x17, 0x03]) =
        ⟨.ok (), ServerFlight.shortest.bytes, [0x17, 0x03]⟩ ∧
      answerTls12 ServerFlight.shortest.bytes (ServerFlight.shortest.bytes ++ [0x17, 0x03])
          (List.replicate 48 7) [1, 2, 3] =
        (.ok (), ServerFlight.shortest.bytes ++ noiseReply (List.replicate 48 7) [1, 2, 3]) := by
  have handover := tls12_handover .answering true 0 1 .shortest (accepts_answering 1 _) [0x17, 0x03]
  have client : (copyUntilTls12HandshakeFinished ServerFlight.shortest.bytes).result = .ok () := by
    have copied := copyUntilTls12HandshakeFinished_flight .shortest []
    rw [List.append_nil] at copied
    rw [copied]
  refine ⟨accepts_answering 1 _, handover.1, ?_⟩
  exact (handover.2.2 ServerFlight.shortest.bytes (List.replicate 48 7) [1, 2, 3] client rfl (by decide)).1

end NoisyShuttle.Tunnel
