import Mathlib.Algebra.Group.Nat.Defs
import NoisyShuttle.Lib.Bytes
import NoisyShuttle.Lib.RawVec

/-!
# TLS records

`read_tls_message` of the tunnel. What rustls decides on its own (its enumerations, its record parser
and its handshake parser) is the parameter `Rustls`; the record parser, which `read_tls_message` was
copied from, is an instance of it.
-/

namespace NoisyShuttle.Tunnel

def tlsRecordHeaderLength : Nat := 5
def maximumCiphertextLength : Nat := 2 ^ 14
def aeadTagLength : Nat := 16
def maximumPlaintextLength : Nat := maximumCiphertextLength - aeadTagLength

inductive IoErrorKind where
  | unexpectedEof | invalidData | writeZero | connectionAborted | other
  deriving DecidableEq, Repr

structure IoError where
  kind : IoErrorKind
  message : String
  deriving DecidableEq, Repr

def earlyEof : IoError := ⟨.unexpectedEof, "early eof"⟩

inductive ContentType where
  | changeCipherSpec | alert | handshake | applicationData | heartbeat
  | unknown (code : UInt8)
  deriving DecidableEq, Repr

inductive ProtocolVersion where
  | named (code : UInt16)
  | unknown (code : UInt16)
  deriving DecidableEq, Repr

inductive MessageError where
  | tooShortForHeader | tooShortForLength | invalidEmptyPayload | messageTooLarge
  | invalidContentType | unknownProtocolVersion
  deriving DecidableEq, Repr

structure OpaqueMessage where
  typ : ContentType
  version : ProtocolVersion
  payload : Bytes
  deriving DecidableEq, Repr

/-- The fields of a ClientHello that `Server::accept` reads. A session id converts to an array
of 32 bytes. -/
structure ClientHelloPayload where
  random : Bytes
  sessionId : Bytes
  random_length : random.length = 32
  sessionId_length : sessionId.length = 32
  deriving DecidableEq

structure ServerHelloPayload where
  supportedVersions : Option ProtocolVersion
  deriving DecidableEq

inductive HandshakeType where
  | clientHello | serverHello | other (code : UInt8)
  deriving DecidableEq, Repr

inductive HandshakePayload where
  | clientHello (chp : ClientHelloPayload)
  | serverHello (shp : ServerHelloPayload)
  | other
  deriving DecidableEq

inductive Message where
  | handshake (typ : HandshakeType) (payload : HandshakePayload)
  | other
  deriving DecidableEq

def maxPayload : Nat := 16384 + 2048
def maxWireSize : Nat := maxPayload + tlsRecordHeaderLength

/-- How rustls names the codes in the header of a record. -/
structure Enums where
  contentType : UInt8 → ContentType
  version : UInt16 → ProtocolVersion
  contentType_applicationData : contentType 0x17 = .applicationData
  version_unknown : ∀ code v, version code = .unknown v → v = code

section Enums

variable (enums : Enums)

def Enums.newContentType (typ : UInt8) : Bool :=
  match enums.contentType typ with
  | .unknown _ => true
  | _ => false

def Enums.foreignVersion (hi lo : UInt8) : Bool :=
  match enums.version (UInt16.ofNat (ofBe16 hi lo)) with
  | .unknown v => v &&& 0xff00 ≠ 0x0300
  | _ => false

def Enums.undersize (typ : UInt8) (len : Nat) : Bool := enums.contentType typ ≠ .applicationData ∧ len = 0

/-- A header with which rustls reads a record of `len` bytes. -/
structure Enums.Reads (typ vhi vlo : UInt8) (len : Nat) : Prop where
  known : enums.newContentType typ = false
  own : enums.foreignVersion vhi vlo = false
  sized : enums.undersize typ len = false
  small : len < maxPayload

/-- Every version 0x03XX is accepted, known or not. -/
theorem Enums.foreignVersion_tls (vlo : UInt8) : enums.foreignVersion 0x03 vlo = false := by
  have ours : ∀ lo < 256, UInt16.ofNat (3 * 256 + lo) &&& 0xff00 = 0x0300 := by decide +kernel
  unfold Enums.foreignVersion
  split
  · next v found =>
    rw [enums.version_unknown _ _ found]
    exact decide_eq_false (not_not.mpr (ours vlo.toNat vlo.toNat_lt))
  · rfl

theorem Enums.reads_applicationData (vlo : UInt8) {len : Nat} (small : len < maxPayload) :
    enums.Reads 0x17 0x03 vlo len where
  known := by simp [Enums.newContentType, enums.contentType_applicationData]
  own := enums.foreignVersion_tls vlo
  sized := by simp [Enums.undersize, enums.contentType_applicationData]
  small := small

end Enums

/-- The parts of rustls that are not in the repository. Of its record parser, `OpaqueMessage::read`, it is
assumed that a message is a record at the front of the bytes, whatever follows it; that bytes it finds too
short are a part of a record below its limit; that it reads a record with a header it has nothing against,
and finds a part of one too short. -/
structure Rustls extends Enums where
  read : Bytes → Except MessageError (OpaqueMessage × Nat)
  tryFrom : OpaqueMessage → Option Message
  read_ok : ∀ {bytes message n}, read bytes = .ok (message, n) →
    ∃ typ vhi vlo lhi llo rest, bytes = typ :: vhi :: vlo :: lhi :: llo :: (message.payload ++ rest) ∧
      message.payload.length = ofBe16 lhi llo ∧ n = tlsRecordHeaderLength + ofBe16 lhi llo ∧
      ∀ rest, read (typ :: vhi :: vlo :: lhi :: llo :: (message.payload ++ rest)) = .ok (message, n)
  read_short : ∀ {bytes}, read bytes = .error .tooShortForHeader ∨ read bytes = .error .tooShortForLength →
    bytes.length < tlsRecordHeaderLength ∨
      ∃ typ vhi vlo lhi llo body, bytes = typ :: vhi :: vlo :: lhi :: llo :: body ∧
        body.length < ofBe16 lhi llo ∧ ofBe16 lhi llo < maxPayload
  read_record : ∀ {typ vhi vlo lhi llo payload} rest, toEnums.Reads typ vhi vlo (ofBe16 lhi llo) →
    payload.length = ofBe16 lhi llo →
    read (typ :: vhi :: vlo :: lhi :: llo :: (payload ++ rest)) =
      .ok (⟨contentType typ, version (UInt16.ofNat (ofBe16 vhi vlo)), payload⟩,
        tlsRecordHeaderLength + ofBe16 lhi llo)
  read_begun : ∀ {typ vhi vlo lhi llo payload pending rest}, toEnums.Reads typ vhi vlo (ofBe16 lhi llo) →
    payload.length = ofBe16 lhi llo → typ :: vhi :: vlo :: lhi :: llo :: payload = pending ++ rest → rest ≠ [] →
    read pending = .error .tooShortForHeader ∨ read pending = .error .tooShortForLength

section Parser

variable (enums : Enums)

/-- The record parser of rustls. -/
def OpaqueMessage.read : Bytes → Except MessageError (OpaqueMessage × Nat)
  | [] => .error .tooShortForHeader
  | typ :: stream =>
    if enums.newContentType typ then .error .invalidContentType
    else match stream with
      | vhi :: vlo :: stream =>
        if enums.foreignVersion vhi vlo then .error .unknownProtocolVersion
        else match stream with
          | lhi :: llo :: stream =>
            let len := ofBe16 lhi llo
            if enums.undersize typ len then .error .invalidEmptyPayload
            else if len ≥ maxPayload then .error .messageTooLarge
            else match readExact len stream with
              | none => .error .tooShortForLength
              | some (payload, _) =>
                .ok (⟨enums.contentType typ, enums.version (UInt16.ofNat (ofBe16 vhi vlo)), payload⟩,
                  tlsRecordHeaderLength + len)
          | _ => .error .tooShortForHeader
      | _ => .error .tooShortForHeader

theorem OpaqueMessage.read_record {typ vhi vlo lhi llo : UInt8} {payload : Bytes} (rest : Bytes)
    (reads : enums.Reads typ vhi vlo (ofBe16 lhi llo)) (length : payload.length = ofBe16 lhi llo) :
    OpaqueMessage.read enums (typ :: vhi :: vlo :: lhi :: llo :: (payload ++ rest)) =
      .ok (⟨enums.contentType typ, enums.version (UInt16.ofNat (ofBe16 vhi vlo)), payload⟩,
        tlsRecordHeaderLength + ofBe16 lhi llo) := by
  obtain ⟨known, own, sized, small⟩ := reads
  have whole : readExact (ofBe16 lhi llo) (payload ++ rest) = some (payload, rest) := by
    rw [← length, readExact_append]
  simp only [OpaqueMessage.read, known, own, sized, Nat.not_le.mpr small, whole, if_false, Bool.false_eq_true]

theorem OpaqueMessage.read_ok {bytes : Bytes} {message : OpaqueMessage} {n : Nat}
    (h : OpaqueMessage.read enums bytes = .ok (message, n)) :
    ∃ typ vhi vlo lhi llo rest, bytes = typ :: vhi :: vlo :: lhi :: llo :: (message.payload ++ rest) ∧
      message.payload.length = ofBe16 lhi llo ∧ n = tlsRecordHeaderLength + ofBe16 lhi llo ∧
      ∀ rest, OpaqueMessage.read enums (typ :: vhi :: vlo :: lhi :: llo :: (message.payload ++ rest)) =
        .ok (message, n) := by
  unfold OpaqueMessage.read at h
  repeat (split at h <;> try contradiction)
  dsimp only at h
  repeat (split at h <;> try contradiction)
  next typ known _ vhi vlo own _ lhi llo body sized small _ payload left took =>
    obtain ⟨rfl, length⟩ := readExact_eq_some.mp took
    cases h
    refine ⟨typ, vhi, vlo, lhi, llo, left, rfl, length, rfl, ?_⟩
    intro rest
    exact OpaqueMessage.read_record enums rest ⟨Bool.not_eq_true _ ▸ known, Bool.not_eq_true _ ▸ own,
      Bool.not_eq_true _ ▸ sized, Nat.not_le.mp small⟩ length

theorem OpaqueMessage.read_short {bytes : Bytes}
    (h : OpaqueMessage.read enums bytes = .error .tooShortForHeader ∨
      OpaqueMessage.read enums bytes = .error .tooShortForLength) :
    bytes.length < tlsRecordHeaderLength ∨
      ∃ typ vhi vlo lhi llo body, bytes = typ :: vhi :: vlo :: lhi :: llo :: body ∧
        body.length < ofBe16 lhi llo ∧ ofBe16 lhi llo < maxPayload := by
  match bytes with
  | [] | [_] | [_, _] | [_, _, _] | [_, _, _, _] => exact .inl (by simp [tlsRecordHeaderLength])
  | typ :: vhi :: vlo :: lhi :: llo :: body =>
    refine .inr ⟨typ, vhi, vlo, lhi, llo, body, rfl, ?_⟩
    simp only [OpaqueMessage.read] at h
    split at h
    · simp at h
    split at h
    · simp at h
    split at h
    · simp at h
    split at h
    · simp at h
    · next small =>
      split at h
      · next missing =>
        refine ⟨?_, Nat.not_le.mp small⟩
        by_contra enough
        rw [readExact, if_pos (Nat.not_lt.mp enough)] at missing
        cases missing
      · simp at h

theorem OpaqueMessage.read_begun {typ vhi vlo lhi llo : UInt8} {payload pending rest : Bytes}
    (reads : enums.Reads typ vhi vlo (ofBe16 lhi llo)) (length : payload.length = ofBe16 lhi llo)
    (h : typ :: vhi :: vlo :: lhi :: llo :: payload = pending ++ rest) (missing : rest ≠ []) :
    OpaqueMessage.read enums pending = .error .tooShortForHeader ∨
      OpaqueMessage.read enums pending = .error .tooShortForLength := by
  obtain ⟨known, own, sized, small⟩ := reads
  -- how many of the five header bytes are there
  rcases pending with _ | ⟨_, _ | ⟨_, _ | ⟨_, _ | ⟨_, _ | ⟨_, body⟩⟩⟩⟩⟩ <;>
    simp only [List.cons_append, List.nil_append, List.cons.injEq] at h
  · exact .inl rfl
  · obtain ⟨rfl, -⟩ := h
    exact .inl (by simp [OpaqueMessage.read, known])
  · obtain ⟨rfl, rfl, -⟩ := h
    exact .inl (by simp [OpaqueMessage.read, known])
  · obtain ⟨rfl, rfl, rfl, -⟩ := h
    exact .inl (by simp [OpaqueMessage.read, known, own])
  · obtain ⟨rfl, rfl, rfl, rfl, -⟩ := h
    exact .inl (by simp [OpaqueMessage.read, known, own])
  · obtain ⟨rfl, rfl, rfl, rfl, rfl, rfl⟩ := h
    have short : readExact (ofBe16 lhi llo) body = none := by
      have := List.length_pos_iff.mpr missing
      rw [← length, List.length_append]
      simp only [readExact, ite_eq_right_iff]
      omega
    exact .inr (by
      simp only [OpaqueMessage.read, known, own, sized, Nat.not_le.mpr small, short, if_false, Bool.false_eq_true])

end Parser

def Enums.registered : Enums where
  contentType
    | 0x14 => .changeCipherSpec
    | 0x15 => .alert
    | 0x16 => .handshake
    | 0x17 => .applicationData
    | 0x18 => .heartbeat
    | code => .unknown code
  version code :=
    if code ∈ [0x0200, 0x0300, 0x0301, 0x0302, 0x0303, 0x0304, 0xfeff, 0xfefd, 0xfefc] then .named code
    else .unknown code
  contentType_applicationData := rfl
  version_unknown code v h := by
    split at h
    · cases h
    · cases h
      rfl

def Rustls.registered (tryFrom : OpaqueMessage → Option Message) : Rustls where
  toEnums := .registered
  read := OpaqueMessage.read .registered
  tryFrom := tryFrom
  read_ok := OpaqueMessage.read_ok .registered
  read_short := OpaqueMessage.read_short .registered
  read_record := OpaqueMessage.read_record .registered
  read_begun := OpaqueMessage.read_begun .registered

def Message.isHandshakeType (typ : HandshakeType) : Message → Bool
  | .handshake t _ => t = typ
  | .other => false

def Message.intoClientHelloPayload : Message → Option ClientHelloPayload
  | .handshake _ (.clientHello chp) => some chp
  | _ => none

def Message.intoServerHelloPayload : Message → Option ServerHelloPayload
  | .handshake _ (.serverHello shp) => some shp
  | _ => none

variable (rustls : Rustls)

/-- Read a single TLS message into `buf`: the verdict, the buffer and the bytes left unread. The
header is checked before anything is stored in the buffer. -/
def readTlsMessage (uninit : UInt8) (stream : Bytes) (buf : RawVec UInt8) :
    Except IoError (Except MessageError Unit × RawVec UInt8 × Bytes) :=
  match stream with
  | typ :: vhi :: vlo :: lhi :: llo :: rest =>
    let len := ofBe16 lhi llo
    if rustls.newContentType typ then .ok (.error .invalidContentType, buf, rest)
    else if rustls.foreignVersion vhi vlo then .ok (.error .unknownProtocolVersion, buf, rest)
    else if rustls.undersize typ len then .ok (.error .invalidEmptyPayload, buf, rest)
    else if len ≥ maximumCiphertextLength then .ok (.error .messageTooLarge, buf, rest)
    else
      let reserved := buf.reserveExact uninit (max (tlsRecordHeaderLength + len) buf.len - buf.len)
      let sized := reserved.setLen (tlsRecordHeaderLength + len) (buf.le_capacity_reserve_up_to uninit _)
      match readExact len rest with
      | none => .error earlyEof
      | some (payload, rest) =>
        .ok (.ok (), sized.overwrite ([typ, vhi, vlo, lhi, llo] ++ payload), rest)
  | _ => .error earlyEof

theorem take_record (typ vhi vlo lhi llo : UInt8) (payload rest : Bytes) :
    (typ :: vhi :: vlo :: lhi :: llo :: (payload ++ rest)).take (tlsRecordHeaderLength + payload.length) =
      typ :: vhi :: vlo :: lhi :: llo :: payload := by
  rw [Nat.add_comm]
  simp only [tlsRecordHeaderLength, List.take_succ_cons, List.take_left]

def parseTlsPlainMessage (buf : Bytes) : Option Message :=
  match rustls.read buf with
  | .ok (om, _) => rustls.tryFrom om
  | .error _ => none

def headerAccepted : Bytes → Bool
  | typ :: vhi :: vlo :: lhi :: llo :: _ =>
    !rustls.newContentType typ && !rustls.foreignVersion vhi vlo &&
      !rustls.undersize typ (ofBe16 lhi llo) && decide (ofBe16 lhi llo < maximumCiphertextLength)
  | _ => false

/-- A rejected header is consumed and kept nowhere: the buffer is the caller's, five bytes are gone. -/
theorem readTlsMessage_rejected {uninit : UInt8} {stream rest : Bytes} {buf after : RawVec UInt8}
    {err : MessageError}
    (h : readTlsMessage rustls uninit stream buf = .ok (.error err, after, rest)) :
    after = buf ∧ headerAccepted rustls stream = false ∧ ∃ header, header.length = 5 ∧ stream = header ++ rest := by
  unfold readTlsMessage at h
  split at h
  · next typ vhi vlo lhi llo body =>
    dsimp only at h
    have split5 : ∃ header : Bytes, header.length = 5 ∧
        typ :: vhi :: vlo :: lhi :: llo :: body = header ++ body := ⟨[typ, vhi, vlo, lhi, llo], rfl, rfl⟩
    split at h
    · cases h; simp_all [headerAccepted]
    split at h
    · cases h; simp_all [headerAccepted]
    split at h
    · cases h; simp_all [headerAccepted]
    split at h
    · cases h; simp_all [headerAccepted]
    · split at h <;> cases h
  · cases h

theorem readTlsMessage_unaccepted {typ vhi vlo lhi llo : UInt8} {body : Bytes} (uninit : UInt8) (buf : RawVec UInt8)
    (rejected : headerAccepted rustls (typ :: vhi :: vlo :: lhi :: llo :: body) = false) :
    ∃ err, readTlsMessage rustls uninit (typ :: vhi :: vlo :: lhi :: llo :: body) buf =
      .ok (.error err, buf, body) := by
  unfold readTlsMessage
  dsimp only
  by_cases new : rustls.newContentType typ = true
  · exact ⟨_, if_pos new⟩
  rw [if_neg new]
  by_cases foreign : rustls.foreignVersion vhi vlo = true
  · exact ⟨_, if_pos foreign⟩
  rw [if_neg foreign]
  by_cases empty : rustls.undersize typ (ofBe16 lhi llo) = true
  · exact ⟨_, if_pos empty⟩
  rw [if_neg empty]
  have long : ofBe16 lhi llo ≥ maximumCiphertextLength := by
    simpa [headerAccepted, new, foreign, empty] using rejected
  exact ⟨_, if_pos long⟩

/-- The buffer with room reserved for a record of `len` bytes. -/
def reservedFor (uninit : UInt8) (len : Nat) (buf : RawVec UInt8) : RawVec UInt8 :=
  buf.reserveExact uninit (max (tlsRecordHeaderLength + len) buf.len - buf.len)

/-- What a read record leaves: its bytes over those of the buffer, at the length of the record. -/
theorem readTlsMessage_ok {uninit : UInt8} {stream rest : Bytes} {buf after : RawVec UInt8}
    (h : readTlsMessage rustls uninit stream buf = .ok (.ok (), after, rest)) :
    ∃ typ vhi vlo lhi llo payload, stream = typ :: vhi :: vlo :: lhi :: llo :: (payload ++ rest) ∧
      payload.length = ofBe16 lhi llo ∧ headerAccepted rustls stream = true ∧
      ∃ fits, after = ((reservedFor uninit (ofBe16 lhi llo) buf).setLen (tlsRecordHeaderLength + ofBe16 lhi llo)
        fits).overwrite (typ :: vhi :: vlo :: lhi :: llo :: payload) := by
  unfold readTlsMessage at h
  split at h
  · next typ vhi vlo lhi llo body =>
    dsimp only at h
    split at h
    · cases h
    split at h
    · cases h
    split at h
    · cases h
    split at h
    · cases h
    · split at h
      · cases h
      · next payload left took =>
        obtain ⟨rfl, length⟩ := readExact_eq_some.mp took
        cases h
        exact ⟨typ, vhi, vlo, lhi, llo, payload, rfl, length, by simp_all [headerAccepted], _, rfl⟩
  · cases h

/-- An accepted record is in the buffer in whole, whatever the buffer held before. -/
theorem readTlsMessage_contents {uninit : UInt8} {stream rest : Bytes} {buf after : RawVec UInt8}
    (h : readTlsMessage rustls uninit stream buf = .ok (.ok (), after, rest)) :
    ∃ typ vhi vlo lhi llo body, stream = typ :: vhi :: vlo :: lhi :: llo :: body ∧
      stream = after.contents ++ rest ∧ after.len = tlsRecordHeaderLength + ofBe16 lhi llo ∧
      after.capacity = (reservedFor uninit (ofBe16 lhi llo) buf).capacity := by
  obtain ⟨typ, vhi, vlo, lhi, llo, payload, rfl, length, -, fits, rfl⟩ := readTlsMessage_ok rustls h
  have whole : (typ :: vhi :: vlo :: lhi :: llo :: payload).length = tlsRecordHeaderLength + ofBe16 lhi llo := by
    rw [← length, tlsRecordHeaderLength, Nat.add_comm]
    rfl
  refine ⟨typ, vhi, vlo, lhi, llo, _, rfl, ?_, rfl, RawVec.capacity_overwrite ?_⟩
  · rw [RawVec.contents_overwrite_all whole.symm]
    rfl
  · rw [whole]
    exact fits

theorem readTlsMessage_accepted {uninit : UInt8} {stream rest : Bytes} {buf after : RawVec UInt8}
    (h : readTlsMessage rustls uninit stream buf = .ok (.ok (), after, rest)) :
    headerAccepted rustls stream = true ∧ stream = after.contents ++ rest := by
  obtain ⟨_, _, _, _, _, _, -, -, accepted, -⟩ := readTlsMessage_ok rustls h
  obtain ⟨_, _, _, _, _, _, -, split, -⟩ := readTlsMessage_contents rustls h
  exact ⟨accepted, split⟩

/-- Conversely, a record with an accepted header and all of its payload is read. -/
theorem readTlsMessage_whole {typ vhi vlo lhi llo : UInt8} {payload : Bytes} (uninit : UInt8) (rest : Bytes)
    (buf : RawVec UInt8) (accepted : headerAccepted rustls [typ, vhi, vlo, lhi, llo] = true)
    (size : ofBe16 lhi llo = payload.length) :
    ∃ after, readTlsMessage rustls uninit (typ :: vhi :: vlo :: lhi :: llo :: (payload ++ rest)) buf =
      .ok (.ok (), after, rest) ∧ after.contents = typ :: vhi :: vlo :: lhi :: llo :: payload := by
  simp only [headerAccepted, Bool.and_eq_true, Bool.not_eq_true', decide_eq_true_eq] at accepted
  obtain ⟨⟨⟨known, ours⟩, sized⟩, bounded⟩ := accepted
  have taken : readExact (ofBe16 lhi llo) (payload ++ rest) = some (payload, rest) := by
    rw [size, readExact_append]
  have read : ∃ after, readTlsMessage rustls uninit (typ :: vhi :: vlo :: lhi :: llo :: (payload ++ rest)) buf =
      .ok (.ok (), after, rest) := by
    unfold readTlsMessage
    dsimp only
    rw [if_neg (by simp [known]), if_neg (by simp [ours]), if_neg (by simp [sized]), if_neg (by omega),
      taken]
    exact ⟨_, rfl⟩
  obtain ⟨after, read⟩ := read
  refine ⟨after, read, ?_⟩
  have split := (readTlsMessage_accepted rustls read).2
  exact (List.append_cancel_right split).symm

theorem readTlsMessage_cut {typ vhi vlo lhi llo : UInt8} {rest : Bytes} (uninit : UInt8) (buf : RawVec UInt8)
    (accepted : headerAccepted rustls [typ, vhi, vlo, lhi, llo] = true) (short : rest.length < ofBe16 lhi llo) :
    readTlsMessage rustls uninit (typ :: vhi :: vlo :: lhi :: llo :: rest) buf = .error earlyEof := by
  simp only [headerAccepted, Bool.and_eq_true, Bool.not_eq_true', decide_eq_true_eq] at accepted
  obtain ⟨⟨⟨known, ours⟩, sized⟩, bounded⟩ := accepted
  have missing : readExact (ofBe16 lhi llo) rest = none := if_neg (Nat.not_le.mpr short)
  unfold readTlsMessage
  dsimp only
  rw [if_neg (by simp [known]), if_neg (by simp [ours]), if_neg (by simp [sized]), if_neg (by omega), missing]

theorem readTlsMessage_headless {stream : Bytes} (uninit : UInt8) (buf : RawVec UInt8)
    (short : ∀ typ vhi vlo lhi llo rest, stream ≠ typ :: vhi :: vlo :: lhi :: llo :: rest) :
    readTlsMessage rustls uninit stream buf = .error earlyEof := by
  unfold readTlsMessage
  split
  · next typ vhi vlo lhi llo rest => exact absurd rfl (short typ vhi vlo lhi llo rest)
  · rfl

theorem headerAccepted_tls {typ lhi llo : UInt8} (vlo : UInt8) (known : ∀ code, rustls.contentType typ ≠ .unknown code)
    (small : ofBe16 lhi llo < maximumCiphertextLength)
    (some : ofBe16 lhi llo = 0 → rustls.contentType typ = .applicationData) :
    headerAccepted rustls [typ, 0x03, vlo, lhi, llo] = true := by
  have old : rustls.newContentType typ = false := by
    unfold Enums.newContentType
    split
    · next code found => exact absurd found (known code)
    · rfl
  have sized : rustls.undersize typ (ofBe16 lhi llo) = false :=
    decide_eq_false fun ⟨other, nothing⟩ => other (some nothing)
  rw [headerAccepted, old, rustls.foreignVersion_tls, sized, decide_eq_true small]
  rfl

/-- One record into any buffer: the buffer is then the record, the length it was set to is within the room
reserved for it, and a whole record of a known type and a version 0x03XX is always read. -/
theorem reads_one_record (rustls : Rustls) (uninit : UInt8) (stream : Bytes) (buf : RawVec UInt8) :
    (∀ after rest, readTlsMessage rustls uninit stream buf = .ok (.ok (), after, rest) →
      ∃ typ vhi vlo lhi llo body, stream = typ :: vhi :: vlo :: lhi :: llo :: body ∧
        after.contents = stream.take (5 + ofBe16 lhi llo) ∧ after.len = 5 + ofBe16 lhi llo ∧
        rest = stream.drop (5 + ofBe16 lhi llo) ∧ 5 + ofBe16 lhi llo ≤ stream.length ∧
        after.capacity = (reservedFor uninit (ofBe16 lhi llo) buf).capacity) ∧
    (∀ len, 5 + len ≤ (reservedFor uninit len buf).capacity) ∧
    ∀ typ vlo lhi llo payload rest, stream = typ :: 0x03 :: vlo :: lhi :: llo :: (payload ++ rest) →
      payload.length = ofBe16 lhi llo → (∀ code, rustls.contentType typ ≠ .unknown code) →
      payload.length < 2 ^ 14 → (payload.length = 0 → rustls.contentType typ = .applicationData) →
      ∃ after, readTlsMessage rustls uninit stream buf = .ok (.ok (), after, rest) := by
  refine ⟨?_, fun len => buf.le_capacity_reserve_up_to uninit _, ?_⟩
  · intro after rest read
    obtain ⟨typ, vhi, vlo, lhi, llo, body, header, split, len, capacity⟩ := readTlsMessage_contents rustls read
    have size : after.contents.length = 5 + ofBe16 lhi llo := after.length_contents.trans len
    refine ⟨typ, vhi, vlo, lhi, llo, body, header, ?_, len, ?_, ?_, capacity⟩
    · rw [split, ← size, List.take_left]
    · rw [split, ← size, List.drop_left]
    · rw [split, List.length_append]
      omega
  · rintro typ vlo lhi llo payload rest rfl size known small some
    rw [size] at small some
    obtain ⟨after, read, -⟩ := readTlsMessage_whole rustls uninit rest buf
      (headerAccepted_tls rustls vlo known small some) size.symm
    exact ⟨after, read⟩

/-- A short record into a buffer that held a longer one. -/
theorem reads_one_record_shorter :
    ∃ after, readTlsMessage (.registered fun _ => none) 0xaa [0x17, 0x03, 0x03, 0x00, 0x01, 0x2a, 0x16]
        ⟨[1, 2, 3, 4, 5, 6, 7, 8], 8, by decide⟩ = .ok (.ok (), after, [0x16]) ∧
      after.contents = [0x17, 0x03, 0x03, 0x00, 0x01, 0x2a] := by
  obtain ⟨exact, -, succeeds⟩ := reads_one_record (.registered fun _ => none) 0xaa
    [0x17, 0x03, 0x03, 0x00, 0x01, 0x2a, 0x16] ⟨[1, 2, 3, 4, 5, 6, 7, 8], 8, by decide⟩
  obtain ⟨after, read⟩ := succeeds 0x17 0x03 0x00 0x01 [0x2a] [0x16] rfl rfl nofun (by decide) nofun
  obtain ⟨typ, vhi, vlo, lhi, llo, body, header, contents, -⟩ := exact after [0x16] read
  cases header
  exact ⟨after, read, contents⟩

end NoisyShuttle.Tunnel
