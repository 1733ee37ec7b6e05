import NoisyShuttle.Tunnel.Handover

/-!
# The buffer of the handshake loop

`tls12_handshake` takes the length of a record from its header and slices its buffer with it. Which
streams of a server keep the slice in range, whatever rustls makes of the records.
-/

namespace NoisyShuttle.Tunnel

/-- The lengths of the records that the loop can come to: up to the first one after the ChangeCipherSpec.
The length counts as soon as the header is there. -/
def recordLengths (debugAssertions stopAfterServerCcs seenCcs : Bool) (stream : Bytes) : List Nat :=
  match stream with
  | typ :: _ :: _ :: lhi :: llo :: rest =>
    ofBe16 lhi llo ::
      match _took : readExact (ofBe16 lhi llo) rest with
      | none => []
      | some (_, rest) =>
        if typ = changeCipherSpecCode then
          if stopAfterServerCcs then [] else recordLengths debugAssertions stopAfterServerCcs true rest
        else if debugAssertions && typ ≠ handshakeCode then []
        else if seenCcs then []
        else recordLengths debugAssertions stopAfterServerCcs seenCcs rest
  | _ => []
termination_by stream.length
decreasing_by
  all_goals
    have shorter := congrArg List.length (readExact_eq_some.mp _took).1
    simp only [List.length_append, List.length_cons] at *
    omega

theorem mem_recordLengths (debugAssertions stop seenCcs : Bool) (typ vhi vlo lhi llo : UInt8) (rest : Bytes) :
    ofBe16 lhi llo ∈ recordLengths debugAssertions stop seenCcs (typ :: vhi :: vlo :: lhi :: llo :: rest) := by
  rw [recordLengths]
  exact List.mem_cons_self

theorem recordLengths_short {typ vhi vlo lhi llo : UInt8} {rest : Bytes}
    (took : readExact (ofBe16 lhi llo) rest = none) (debugAssertions stop seenCcs : Bool) :
    recordLengths debugAssertions stop seenCcs (typ :: vhi :: vlo :: lhi :: llo :: rest) = [ofBe16 lhi llo] := by
  rw [recordLengths]
  split
  · rfl
  · next other left same =>
    rw [took] at same
    cases same

theorem recordLengths_record {typ vhi vlo lhi llo : UInt8} {data rest later : Bytes}
    (took : readExact (ofBe16 lhi llo) rest = some (data, later)) (debugAssertions stop seenCcs : Bool) :
    recordLengths debugAssertions stop seenCcs (typ :: vhi :: vlo :: lhi :: llo :: rest) =
      ofBe16 lhi llo ::
        if typ = changeCipherSpecCode then
          if stop then [] else recordLengths debugAssertions stop true later
        else if debugAssertions && typ ≠ handshakeCode then []
        else if seenCcs then []
        else recordLengths debugAssertions stop seenCcs later := by
  rw [recordLengths]
  split
  · next short =>
    rw [took] at short
    cases short
  · next other left same =>
    rw [took, Option.some.injEq, Prod.mk.injEq] at same
    obtain ⟨rfl, rfl⟩ := same
    rfl

/-- No other code is taken for a ChangeCipherSpec. -/
def ClientConnection.OnlyCcs {σ : Type} (tls : ClientConnection σ) : Prop :=
  ∀ typ, tls.contentType typ = .changeCipherSpec → typ = changeCipherSpecCode

/-! ## Streams that stay in range -/

section

variable {σ : Type} {tls : ClientConnection σ}

theorem feed_error {conn : σ} {record : Bytes} {why : HandshakePanic} (h : feed tls conn record = .error why) :
    why ≠ .outOfRange := by
  fun_induction feed tls conn record with
  | case1 conn => cases h
  | case2 conn byte rest refused =>
    cases h
    decide
  | case3 conn byte rest after zero =>
    cases h
    decide
  | case4 conn byte rest n after taken ih => exact ih h

theorem tls12Loop_in_range (only : tls.OnlyCcs) {debugAssertions stop : Bool} {conn : σ} {bufLen : Nat}
    {seenCcs : Bool} {sent stream : Bytes} (room : tlsRecordHeaderLength + maximumCiphertextLength ≤ bufLen)
    (bounded : ∀ len ∈ recordLengths debugAssertions stop seenCcs stream, len ≤ maximumCiphertextLength) :
    tls12Loop tls debugAssertions stop conn bufLen seenCcs sent stream ≠ .panicked .outOfRange := by
  fun_induction tls12Loop tls debugAssertions stop conn bufLen seenCcs sent stream with
  | case1 conn bufLen seenCcs sent stream more ih => exact ih (by omega) bounded
  | case2 conn bufLen seenCcs sent idle reads typ vhi vlo lhi llo rest short =>
    have fits := bounded _ (mem_recordLengths ..)
    omega
  | case3 => exact nofun
  | case4 conn bufLen seenCcs sent idle reads typ vhi vlo lhi llo rest fits data later took why refused =>
    intro same
    cases same
    exact feed_error refused rfl
  | case5 => exact nofun
  | case6 => exact nofun
  | case7 conn bufLen seenCcs sent idle reads typ vhi vlo lhi llo rest fits data later took fed taken next accepted
      ccs goes ih =>
    rw [recordLengths_record took, if_pos (only typ ccs), if_neg goes] at bounded
    exact ih room fun len member => bounded len (List.mem_cons_of_mem _ member)
  | case8 => exact nofun
  | case9 => exact nofun
  | case10 conn bufLen seenCcs sent idle reads typ vhi vlo lhi llo rest fits data later took fed taken next accepted
      other expected unseen ih =>
    have plain : typ ≠ changeCipherSpecCode := by
      rintro rfl
      exact other tls.contentType_changeCipherSpec
    rw [recordLengths_record took, if_neg plain, if_neg expected, if_neg unseen] at bounded
    exact ih room fun len member => bounded len (List.mem_cons_of_mem _ member)
  | case11 => exact nofun
  | case12 => exact nofun

end

/-! ## Streams that do not -/

theorem answering_onlyCcs : ClientConnection.answering.OnlyCcs := by
  intro typ ccs
  simp only [ClientConnection.answering, Rustls.registered, Enums.registered] at ccs
  split at ccs <;> first | rfl | cases ccs

section

variable {debugAssertions stop seenCcs : Bool} {bufLen : Nat} {sent : Bytes}

/-- What this connection has to send does not make the buffer longer. -/
theorem tls12Loop_answering_idle (room : tlsRecordHeaderLength ≤ bufLen) (conn : Nat) (sent stream : Bytes) :
    ∃ out, tls12Loop .answering debugAssertions stop conn bufLen seenCcs sent stream =
      tls12Loop .answering debugAssertions stop 0 bufLen seenCcs out stream := by
  induction conn generalizing sent with
  | zero => exact ⟨sent, rfl⟩
  | succ conn ih =>
    obtain ⟨out, same⟩ := ih (sent ++ (ClientConnection.answering.writeTls (conn + 1)).1)
    have kept : max bufLen (ClientConnection.answering.writeTls (conn + 1)).1.length = bufLen := Nat.max_eq_left room
    have more : ClientConnection.answering.wantsWrite (conn + 1) = true := decide_eq_true (Nat.succ_pos conn)
    refine ⟨out, ?_⟩
    rw [tls12Loop.eq_def, dif_pos more, kept]
    exact same

theorem tls12Loop_answering_long {typ vhi vlo lhi llo : UInt8} {rest : Bytes}
    (long : bufLen < tlsRecordHeaderLength + ofBe16 lhi llo) :
    tls12Loop .answering debugAssertions stop 0 bufLen seenCcs sent (typ :: vhi :: vlo :: lhi :: llo :: rest) =
      .panicked .outOfRange := by
  have reads : ClientConnection.answering.wantsRead 0 = true := rfl
  rw [tls12Loop, dif_neg (by decide), if_pos reads, if_pos long]

theorem tls12Loop_answering_record {typ vhi vlo lhi llo : UInt8} {data rest later : Bytes}
    (took : readExact (ofBe16 lhi llo) rest = some (data, later))
    (fits : tlsRecordHeaderLength + ofBe16 lhi llo ≤ bufLen) :
    tls12Loop .answering debugAssertions stop 0 bufLen seenCcs sent (typ :: vhi :: vlo :: lhi :: llo :: rest) =
      if ClientConnection.answering.contentType typ = .changeCipherSpec then
        if stop then .done 1 sent later else tls12Loop .answering debugAssertions stop 1 bufLen true sent later
      else if debugAssertions && typ ≠ handshakeCode then .panicked .notHandshake
      else if seenCcs then .done 1 sent later
      else tls12Loop .answering debugAssertions stop 1 bufLen seenCcs sent later := by
  have reads : ClientConnection.answering.wantsRead 0 = true := rfl
  rw [tls12Loop, dif_neg (by decide), if_pos reads, if_neg (by omega)]
  split
  · next short =>
    rw [took] at short
    cases short
  · next other left same =>
    rw [took, Option.some.injEq, Prod.mk.injEq] at same
    obtain ⟨rfl, rfl⟩ := same
    rw [feed_answering]
    rfl

end

theorem tls12Loop_answering {debugAssertions stop seenCcs : Bool} {stream : Bytes}
    (long : ∃ len ∈ recordLengths debugAssertions stop seenCcs stream, maximumCiphertextLength < len) (conn : Nat)
    (sent : Bytes) :
    tls12Loop .answering debugAssertions stop conn (tlsRecordHeaderLength + maximumCiphertextLength) seenCcs sent
      stream = .panicked .outOfRange := by
  induction seenCcs, stream using recordLengths.induct generalizing conn sent with
  | case1 seenCcs typ vhi vlo lhi llo rest changed unchanged =>
    obtain ⟨out, idle⟩ :=
      tls12Loop_answering_idle (Nat.le_add_right ..) conn sent (typ :: vhi :: vlo :: lhi :: llo :: rest)
    rw [idle]
    by_cases here : maximumCiphertextLength < ofBe16 lhi llo
    · exact tls12Loop_answering_long (by omega)
    obtain ⟨len, member, longer⟩ := long
    cases took : readExact (ofBe16 lhi llo) rest with
    | none =>
      rw [recordLengths_short took] at member
      cases List.mem_singleton.mp member
      exact absurd longer here
    | some pair =>
      obtain ⟨data, later⟩ := pair
      rw [tls12Loop_answering_record took (by omega)]
      rw [recordLengths_record took] at member
      have further := (List.mem_cons.mp member).resolve_left (by omega)
      by_cases ccs : typ = changeCipherSpecCode
      · rw [if_pos ccs] at further
        rw [if_pos (by rw [ccs]; rfl)]
        cases stop with
        | true => exact absurd further List.not_mem_nil
        | false => exact changed data later took ⟨len, further, longer⟩ 1 out
      · rw [if_neg ccs] at further
        rw [if_neg (mt (answering_onlyCcs typ) ccs)]
        split at further
        · exact absurd further List.not_mem_nil
        · next expected =>
          rw [if_neg expected]
          cases seenCcs with
          | true => exact absurd further List.not_mem_nil
          | false => exact unchanged data later took ⟨len, further, longer⟩ 1 out
  | case2 seenCcs stream short =>
    obtain ⟨len, member, -⟩ := long
    rw [recordLengths] at member
    · exact absurd member List.not_mem_nil
    · exact short

/-- Whatever rustls does, the buffer is large enough for the records of a server exactly if none of them
is longer than a ciphertext may be. -/
theorem handshake_in_range_iff (debugAssertions stop : Bool) (stream : Bytes) :
    (∀ (σ : Type) (tls : ClientConnection σ) (conn : σ), tls.OnlyCcs →
      tls12Handshake tls debugAssertions stop conn stream ≠ .panicked .outOfRange) ↔
    ∀ len ∈ recordLengths debugAssertions stop false stream, len ≤ maximumCiphertextLength := by
  constructor
  · intro inRange
    by_contra long
    simp only [not_forall, Nat.not_le] at long
    obtain ⟨len, member, longer⟩ := long
    exact inRange Nat .answering 0 answering_onlyCcs (tls12Loop_answering ⟨len, member, longer⟩ 0 [])
  · intro bounded σ tls conn only
    exact tls12Loop_in_range only (Nat.le_refl _) bounded

/-- The header of a record of 2^14 + 1 bytes. -/
theorem handshake_out_of_range :
    tls12Handshake .answering false false 0 [0x16, 0x03, 0x03, 0x40, 0x01] = .panicked .outOfRange :=
  tls12Loop_answering_long (by decide)

end NoisyShuttle.Tunnel
