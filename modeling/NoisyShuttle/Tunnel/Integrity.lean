import NoisyShuttle.Lib.Run
import NoisyShuttle.Tunnel.Stream

/-!
# Integrity of the encrypted stream

One `SnowyStream` writes, its peer reads, and the wire between them delivers the emitted bytes in
pieces of any size. The proof follows the list of plaintext chunks that were sealed: the writer has
put their records on the wire, the reader is somewhere inside that sequence of records.
-/

namespace NoisyShuttle.Tunnel

/-- An ideal Noise transport: what `a` seals is one tag longer, and `b` opens it at the same nonce. -/
def Matched (a b : Noise) : Prop :=
  ∀ nonce plaintext, plaintext.length ≤ maximumPlaintextLength → ∃ ciphertext,
    a.writeMessage nonce plaintext = some ciphertext ∧
    ciphertext.length = plaintext.length + aeadTagLength ∧
    b.readMessage nonce ciphertext = some plaintext

structure Link where
  writer : SnowyStream
  reader : SnowyStream
  wire : Bytes
  emitted : Bytes
  accepted : Bytes
  delivered : Bytes

def Link.new : Link := ⟨.new, .new, [], [], [], []⟩

inductive LinkEvent where
  | write (buf : Bytes) (outcomes : List WriteOutcome)
  | flush (outcomes : List WriteOutcome)
  | read (remaining : Nat) (outcomes : List ReadOutcome)

def Poll.accepted : Poll Nat → Nat
  | .ready (.ok n) => n
  | _ => 0

section System

variable (rustls : Rustls) (a b : Noise) (uninit : UInt8)

def Link.step (t : Link) : LinkEvent → Option Link
  | .write buf outcomes =>
    let (poll, writer, emitted) := t.writer.pollWrite a buf outcomes
    some { t with
      writer := writer
      wire := t.wire ++ emitted
      emitted := t.emitted ++ emitted
      accepted := t.accepted ++ buf.take poll.accepted }
  | .flush outcomes =>
    let (_, writer, emitted) := t.writer.pollFlush outcomes
    some { t with writer := writer, wire := t.wire ++ emitted, emitted := t.emitted ++ emitted }
  | .read remaining outcomes =>
    let (_, reader, out, wire) := t.reader.pollRead rustls b uninit remaining t.wire outcomes
    some { t with reader := reader, wire := wire, delivered := t.delivered ++ out }

end System

def WriteOutcome.progressing : WriteOutcome → Bool
  | .wrote n => 0 < n
  | .pending => true
  | .failed _ => false

def LinkEvent.progressing : LinkEvent → Bool
  | .write _ outcomes | .flush outcomes => outcomes.all WriteOutcome.progressing
  | .read _ _ => true

/-- A concatenation of complete TLS records of at most 2^14 bytes. -/
def CompleteRecords (bytes : Bytes) : Prop :=
  ∃ ciphertexts : List Bytes, (∀ c ∈ ciphertexts, c.length ≤ maximumCiphertextLength) ∧
    bytes = (ciphertexts.map record).flatten

def Link.drained (t : Link) : Prop :=
  t.writer.writeBuffer = [] ∧ t.wire = [] ∧ t.reader.pendingRead = [] ∧ t.reader.bufferedPlaintext = []

instance (t : Link) : Decidable t.drained := inferInstanceAs (Decidable (_ ∧ _))

/-! ## The records of a sequence of chunks -/

def IsChunk (chunk : Bytes) : Prop := chunk ≠ [] ∧ chunk.length ≤ maximumPlaintextLength

variable {rustls : Rustls} {a b : Noise} {uninit : UInt8}

def ciphertext (a : Noise) (nonce : Nat) (chunk : Bytes) : Bytes := (a.writeMessage nonce chunk).getD []

def recordsOf (a : Noise) : Nat → List Bytes → Bytes
  | _, [] => []
  | nonce, chunk :: rest => record (ciphertext a nonce chunk) ++ recordsOf a (nonce + 1) rest

theorem recordsOf_append (nonce : Nat) (first second : List Bytes) :
    recordsOf a nonce (first ++ second) = recordsOf a nonce first ++ recordsOf a (nonce + first.length) second := by
  induction first generalizing nonce with
  | nil => simp [recordsOf]
  | cons chunk rest ih => simp [recordsOf, ih, Nat.add_assoc, Nat.add_comm 1]

theorem Matched.write (matched : Matched a b) {chunk : Bytes} (isChunk : IsChunk chunk) (nonce : Nat) :
    a.writeMessage nonce chunk = some (ciphertext a nonce chunk) := by
  obtain ⟨c, wrote, -⟩ := matched nonce chunk isChunk.2
  simp [ciphertext, wrote]

theorem Matched.read (matched : Matched a b) {chunk : Bytes} (isChunk : IsChunk chunk) (nonce : Nat) :
    b.readMessage nonce (ciphertext a nonce chunk) = some chunk := by
  obtain ⟨c, wrote, -, opened⟩ := matched nonce chunk isChunk.2
  simpa [ciphertext, wrote] using opened

theorem Matched.length (matched : Matched a b) {chunk : Bytes} (isChunk : IsChunk chunk) (nonce : Nat) :
    (ciphertext a nonce chunk).length = chunk.length + aeadTagLength := by
  obtain ⟨c, wrote, length, -⟩ := matched nonce chunk isChunk.2
  simpa [ciphertext, wrote] using length

theorem Matched.length_le (matched : Matched a b) {chunk : Bytes} (isChunk : IsChunk chunk) (nonce : Nat) :
    (ciphertext a nonce chunk).length ≤ maximumCiphertextLength := by
  have := matched.length isChunk nonce
  have := isChunk.2
  simp only [maximumPlaintextLength, maximumCiphertextLength, aeadTagLength] at *
  omega

theorem completeRecords_recordsOf (matched : Matched a b) {chunks : List Bytes}
    (isChunk : ∀ c ∈ chunks, IsChunk c) (nonce : Nat) : CompleteRecords (recordsOf a nonce chunks) := by
  induction chunks generalizing nonce with
  | nil => exact ⟨[], by simp, rfl⟩
  | cons chunk rest ih =>
    obtain ⟨ciphertexts, small, eq⟩ := ih (fun c mem => isChunk c (List.mem_cons_of_mem _ mem)) (nonce + 1)
    refine ⟨ciphertext a nonce chunk :: ciphertexts, ?_, by simp [recordsOf, eq]⟩
    intro c mem
    rcases List.mem_cons.mp mem with rfl | mem
    · exact matched.length_le (isChunk chunk List.mem_cons_self) nonce
    · exact small c mem

/-! ## The record parser on such a sequence -/

theorem record_reads (rustls : Rustls) {c : Bytes} (small : c.length ≤ maximumCiphertextLength) :
    ofBe16 (UInt8.ofNat (c.length / 256)) (UInt8.ofNat c.length) = c.length ∧
      rustls.Reads 0x17 0x03 0x03 (ofBe16 (UInt8.ofNat (c.length / 256)) (UInt8.ofNat c.length)) := by
  have size := ofBe16_be16 (Nat.lt_of_le_of_lt small (by decide : maximumCiphertextLength < 65536))
  rw [size]
  exact ⟨rfl, rustls.reads_applicationData 0x03 (Nat.lt_of_le_of_lt small (by decide))⟩

theorem read_record (rustls : Rustls) {c : Bytes} (rest : Bytes) (small : c.length ≤ maximumCiphertextLength) :
    ∃ message, rustls.read (record c ++ rest) = .ok (message, (record c).length) ∧ message.payload = c := by
  obtain ⟨size, reads⟩ := record_reads rustls small
  have used : (record c).length = tlsRecordHeaderLength + c.length := Nat.add_comm c.length tlsRecordHeaderLength
  have parsed := rustls.read_record rest reads size.symm
  rw [size, ← used] at parsed
  exact ⟨_, parsed, rfl⟩

theorem read_partial (rustls : Rustls) {c pending rest : Bytes} (small : c.length ≤ maximumCiphertextLength)
    (missing : rest ≠ []) (h : record c = pending ++ rest) :
    rustls.read pending = .error .tooShortForHeader ∨ rustls.read pending = .error .tooShortForLength := by
  obtain ⟨size, reads⟩ := record_reads rustls small
  exact rustls.read_begun reads size.symm h missing

/-! ## The writer -/

/-- What the loop over the socket does: it hands over a part of what was unsent, and stops only when
nothing is left or the socket is not ready. -/
structure PushSpec (s : SnowyStream) (pushed : SnowyStream.Pushed) : Prop where
  nonce : pushed.stream.sendNonce = s.sendNonce
  emitted : pushed.emitted ++ pushed.stream.unsent = s.unsent
  exit : pushed.exit = .drained ∧ pushed.stream.unsent = [] ∨ pushed.exit = .blocked
  outcomes : pushed.outcomes.all WriteOutcome.progressing = true

theorem unsent_eq_nil {s : SnowyStream} (h : ¬ s.writeOffset < s.writeBuffer.length) : s.unsent = [] :=
  List.drop_eq_nil_of_le (Nat.le_of_not_lt h)

theorem drainWriteBuffer_spec (zeroFails : Bool) (s : SnowyStream) (outcomes : List WriteOutcome)
    (progressing : outcomes.all WriteOutcome.progressing = true) :
    PushSpec s (s.drainWriteBuffer zeroFails outcomes) := by
  induction outcomes generalizing s with
  | nil =>
    unfold SnowyStream.drainWriteBuffer
    refine ⟨rfl, rfl, ?_, rfl⟩
    by_cases h : s.writeOffset < s.writeBuffer.length
    · exact .inr (if_pos h)
    · exact .inl ⟨if_neg h, unsent_eq_nil h⟩
  | cons outcome rest ih =>
    obtain ⟨first, later⟩ := Bool.and_eq_true_iff.mp ((List.all_cons ..).symm.trans progressing)
    unfold SnowyStream.drainWriteBuffer
    by_cases h : s.writeOffset < s.writeBuffer.length
    · rw [if_pos h]
      cases outcome with
      | pending => exact ⟨rfl, rfl, .inr rfl, later⟩
      | failed err => cases first
      | wrote n =>
        have positive : 0 < n := of_decide_eq_true first
        have unsent : s.unsent ≠ [] := by
          simp only [SnowyStream.unsent, ne_eq, List.drop_eq_nil_iff]
          omega
        have taken : ¬ (s.unsent.take n = [] ∧ zeroFails = true) := by
          rintro ⟨none, -⟩
          rcases List.take_eq_nil_iff.mp none with zero | none
          · omega
          · exact unsent none
        dsimp only
        rw [if_neg taken]
        obtain ⟨nonce, emitted, exit, outcomes⟩ :=
          ih { s with writeOffset := s.writeOffset + (s.unsent.take n).length } later
        refine ⟨nonce, ?_, exit, outcomes⟩
        rw [List.append_assoc, emitted]
        simp only [SnowyStream.unsent, ← List.drop_drop]
        exact List.prefix_iff_eq_append.mp (List.take_prefix n s.unsent)
    · rw [if_neg h]
      exact ⟨rfl, rfl, .inl ⟨rfl, unsent_eq_nil h⟩, progressing⟩

/-- What a call of the writer does: it seals `chunks`, and everything that left the stream or is still
unsent continues the records that were there. -/
structure Sealed (a : Noise) (s s' : SnowyStream) (emitted : Bytes) (chunks : List Bytes) : Prop where
  isChunk : ∀ c ∈ chunks, IsChunk c
  nonce : s'.sendNonce = s.sendNonce + chunks.length
  records : emitted ++ s'.unsent = s.unsent ++ recordsOf a s.sendNonce chunks

theorem Sealed.trans {s₀ s₁ s₂ : SnowyStream} {e₁ e₂ : Bytes} {c₁ c₂ : List Bytes}
    (first : Sealed a s₀ s₁ e₁ c₁) (second : Sealed a s₁ s₂ e₂ c₂) : Sealed a s₀ s₂ (e₁ ++ e₂) (c₁ ++ c₂) := by
  refine ⟨?_, ?_, ?_⟩
  · intro c mem
    exact (List.mem_append.mp mem).elim (first.isChunk c) (second.isChunk c)
  · simp only [second.nonce, first.nonce, List.length_append, Nat.add_assoc]
  · rw [List.append_assoc, second.records, ← List.append_assoc, first.records, recordsOf_append, first.nonce,
      List.append_assoc]

theorem PushSpec.sealed {s : SnowyStream} {pushed : SnowyStream.Pushed} (push : PushSpec s pushed) :
    Sealed a s pushed.stream pushed.emitted [] :=
  ⟨by simp, push.nonce, by simp [push.emitted, recordsOf]⟩

theorem PushSpec.cleared {s : SnowyStream} {pushed : SnowyStream.Pushed} (push : PushSpec s pushed)
    (exit : pushed.exit = .drained) : Sealed a s pushed.stream.clearWriteBuffer pushed.emitted [] := by
  refine ⟨by simp, push.nonce, ?_⟩
  rcases push.exit with ⟨-, nothing⟩ | blocked
  · have emitted := push.emitted
    rw [nothing] at emitted
    rw [← emitted]
    simp [SnowyStream.unsent, SnowyStream.clearWriteBuffer, recordsOf]
  · rw [exit] at blocked
    cases blocked

theorem isChunk_take {rest : Bytes} (more : rest ≠ []) : IsChunk (rest.take maximumPlaintextLength) := by
  refine ⟨?_, List.length_take_le ..⟩
  intro none
  rcases List.take_eq_nil_iff.mp none with zero | none
  · exact absurd zero (by decide)
  · exact more none

theorem sealed_frame {s : SnowyStream} {chunk c : Bytes} (isChunk : IsChunk chunk) (empty : s.unsent = [])
    (offset : s.writeOffset = 0) (wrote : a.writeMessage s.sendNonce chunk = some c) :
    Sealed a s { s with writeBuffer := record c, sendNonce := s.sendNonce + 1 } [] [chunk] := by
  refine ⟨by simpa using isChunk, rfl, ?_⟩
  rw [empty]
  simp [SnowyStream.unsent, offset, recordsOf, ciphertext, wrote]

theorem writeLoop_spec (matched : Matched a b) (rest : Bytes) (offset : Nat) (s : SnowyStream)
    (outcomes : List WriteOutcome) (progressing : outcomes.all WriteOutcome.progressing = true)
    {poll : Poll Nat} {s' : SnowyStream} {emitted : Bytes}
    (h : SnowyStream.writeLoop a rest offset s outcomes = (poll, s', emitted)) :
    ∃ chunks, Sealed a s s' emitted chunks ∧ poll.accepted = offset + chunks.flatten.length ∧
      chunks.flatten <+: rest := by
  have push (s : SnowyStream) {outcomes : List WriteOutcome}
      (progressing : outcomes.all WriteOutcome.progressing = true) :=
    drainWriteBuffer_spec true s outcomes progressing
  fun_induction SnowyStream.writeLoop a rest offset s outcomes generalizing poll s' emitted with
  | case1 rest offset s outcomes pushed err failed =>
    rcases (push s progressing).exit with ⟨drained, -⟩ | blocked
    · cases failed.symm.trans drained
    · cases failed.symm.trans blocked
  | case2 rest offset s outcomes pushed blocked =>
    cases h
    refine ⟨[], (push s progressing).sealed, ?_, List.nil_prefix⟩
    split
    · next zero => simp [Poll.accepted, zero]
    · simp [Poll.accepted]
  | case3 offset s outcomes pushed drained =>
    cases h
    exact ⟨[], (push s progressing).cleared drained, rfl, List.nil_prefix⟩
  | case4 rest offset s outcomes pushed drained cleared more =>
    rename_i failed
    rw [matched.write (isChunk_take more)] at failed
    cases failed
  | case5 rest offset s outcomes pushed drained cleared more chunk c wrote framed poll s₁ =>
    rename_i emitted₁ next ih
    cases h
    obtain ⟨chunks, later, accepted, taken⟩ := ih (push s progressing).outcomes next
    have framed := sealed_frame (isChunk_take more) rfl rfl wrote
    refine ⟨chunk :: chunks, ((push s progressing).cleared drained).trans (framed.trans later), ?_, ?_⟩
    · simp only [accepted, List.flatten_cons, List.length_append, Nat.add_assoc]
    · rw [List.flatten_cons, ← List.take_append_drop maximumPlaintextLength rest]
      exact (List.prefix_append_right_inj _).mpr taken

theorem pollWrite_spec (matched : Matched a b) (buf : Bytes) (s : SnowyStream) (outcomes : List WriteOutcome)
    (progressing : outcomes.all WriteOutcome.progressing = true)
    {poll : Poll Nat} {s' : SnowyStream} {emitted : Bytes} (h : s.pollWrite a buf outcomes = (poll, s', emitted)) :
    ∃ chunks, Sealed a s s' emitted chunks ∧ buf.take poll.accepted = chunks.flatten := by
  unfold SnowyStream.pollWrite at h
  split at h
  · obtain ⟨chunks, sealed, accepted, taken⟩ := writeLoop_spec matched buf 0 s outcomes progressing h
    refine ⟨chunks, sealed, ?_⟩
    rw [accepted, Nat.zero_add]
    exact (List.prefix_iff_eq_take.mp taken).symm
  · cases h
    exact ⟨[], ⟨by simp, rfl, by simp [recordsOf]⟩, rfl⟩

theorem pollFlush_spec (s : SnowyStream) (outcomes : List WriteOutcome)
    (progressing : outcomes.all WriteOutcome.progressing = true)
    {poll : Poll Unit} {s' : SnowyStream} {emitted : Bytes} (h : s.pollFlush outcomes = (poll, s', emitted)) :
    Sealed a s s' emitted [] := by
  have push := drainWriteBuffer_spec false s outcomes progressing
  unfold SnowyStream.pollFlush at h
  dsimp only at h
  split at h
  · cases h
    exact push.sealed
  · cases h
    exact push.sealed
  · next drained =>
    cases h
    exact push.cleared drained

/-! ## The reader -/

/-- The reader is inside the records of `sent`: the chunks below its nonce are handed over or in
`read_buffer`, and its pending bytes with those still to come are the records of the others. -/
structure Received (a : Noise) (sent : List Bytes) (coming delivered : Bytes) (s : SnowyStream) : Prop where
  nonce : s.recvNonce ≤ sent.length
  plain : delivered ++ s.bufferedPlaintext = (sent.take s.recvNonce).flatten
  cipher : s.pendingRead ++ coming = recordsOf a s.recvNonce (sent.drop s.recvNonce)
  capacity : s.readBuffer.capacity = 0 ∨ s.readBuffer.capacity = maximumPlaintextLength
  offset : s.readOffset = 0 ∨ s.readOffset < s.readBuffer.len

theorem decrypt_chunk (uninit : UInt8) (matched : Matched a b) {nonce : Nat} {chunk : Bytes} (isChunk : IsChunk chunk)
    {buffer : RawVec UInt8} (empty : buffer.len = 0)
    (capacity : buffer.capacity = 0 ∨ buffer.capacity = maximumPlaintextLength) :
    ∃ filled, decrypt b uninit nonce (ciphertext a nonce chunk) buffer = .plaintext filled ∧
      filled.contents = chunk ∧ filled.capacity = maximumPlaintextLength := by
  have small : buffer.capacity ≤ maximumPlaintextLength := by omega
  have reserved : (buffer.reserveExact uninit (maximumPlaintextLength - buffer.capacity)).capacity =
      maximumPlaintextLength := by
    rw [RawVec.capacity_reserveExact, empty]
    omega
  have fits := isChunk.2
  unfold decrypt
  rw [if_pos small]
  dsimp only
  rw [dif_pos (Nat.le_of_eq reserved.symm), matched.read isChunk]
  dsimp only
  rw [if_pos fits]
  refine ⟨_, rfl, RawVec.contents_truncate_overwrite fits, ?_⟩
  have room : chunk.length ≤ (buffer.reserveExact uninit (maximumPlaintextLength - buffer.capacity)).capacity := by
    omega
  exact (RawVec.capacity_overwrite room).trans reserved

/-- What `deliver` does: bytes of `read_buffer` move to the caller, and it is emptied when there is room for all. -/
structure Delivers (r put : Reading) (full : Bool) : Prop where
  grown : r.out <+: put.out
  bytes : put.out ++ put.stream.bufferedPlaintext = r.out ++ r.stream.bufferedPlaintext
  pending : put.stream.pendingRead = r.stream.pendingRead
  nonce : put.stream.recvNonce = r.stream.recvNonce
  state : put.stream.state = r.stream.state
  capacity : put.stream.readBuffer.capacity = r.stream.readBuffer.capacity
  offset : put.stream.readOffset = 0 ∨ put.stream.readOffset < put.stream.readBuffer.len
  emptied : full = false → put.stream.readBuffer.len = 0 ∧ put.stream.readOffset = 0

theorem deliver_spec {r put : Reading} {full : Bool}
    (offset : r.stream.readOffset = 0 ∨ r.stream.readOffset < r.stream.readBuffer.len)
    (h : r.deliver = (full, put)) : Delivers r put full := by
  unfold Reading.deliver at h
  split at h
  · dsimp only at h
    split at h
    · next less =>
      cases h
      refine ⟨List.prefix_append .., ?_, rfl, rfl, rfl, rfl, .inr less, nofun⟩
      rw [List.append_assoc]
      congr 1
      simp only [SnowyStream.bufferedPlaintext, ← List.drop_drop]
      exact List.take_append_drop ..
    · next all =>
      cases h
      refine ⟨List.prefix_append .., ?_, rfl, rfl, rfl, rfl, .inl rfl, fun _ => ⟨rfl, rfl⟩⟩
      have everything : r.stream.bufferedPlaintext.take
          (min (r.stream.readBuffer.len - r.stream.readOffset) r.remaining) = r.stream.bufferedPlaintext := by
        apply List.take_of_length_le
        simp only [SnowyStream.bufferedPlaintext, List.length_drop, RawVec.length_contents]
        omega
      simp only [everything]
      simp [SnowyStream.bufferedPlaintext]
  · next drained =>
    cases h
    refine ⟨List.prefix_rfl, rfl, rfl, rfl, rfl, rfl, offset, fun _ => ?_⟩
    rcases offset with zero | less
    · exact ⟨by omega, zero⟩
    · exact absurd less drained

theorem deliver_received {sent : List Bytes} {coming before : Bytes} {r put : Reading} {full : Bool}
    (h : Received a sent coming (before ++ r.out) r.stream) (delivered : r.deliver = (full, put)) :
    Received a sent coming (before ++ put.out) put.stream ∧
      (full = false → put.stream.readBuffer.len = 0 ∧ put.stream.readOffset = 0) ∧
      put.stream.pendingRead = r.stream.pendingRead := by
  have spec := deliver_spec h.offset delivered
  refine ⟨⟨?_, ?_, ?_, ?_, spec.offset⟩, spec.emptied, spec.pending⟩
  · rw [spec.nonce]
    exact h.nonce
  · rw [List.append_assoc, spec.bytes, spec.nonce, ← List.append_assoc]
    exact h.plain
  · rw [spec.pending, spec.nonce]
    exact h.cipher
  · rw [spec.capacity]
    exact h.capacity

theorem bufferedPlaintext_eq_nil {s : SnowyStream} (empty : s.readBuffer.len = 0) : s.bufferedPlaintext = [] := by
  simp [SnowyStream.bufferedPlaintext, RawVec.contents, empty]

/-- Which messages the pending bytes can yield: the record of the next chunk, once it is whole. -/
theorem Received.pop (rustls : Rustls) (matched : Matched a b) {sent : List Bytes} (isChunk : ∀ c ∈ sent, IsChunk c)
    {coming delivered : Bytes} {s : SnowyStream} (h : Received a sent coming delivered s) :
    match rustls.read s.pendingRead with
    | .ok (message, n) => ∃ chunk rest, sent.drop s.recvNonce = chunk :: rest ∧ IsChunk chunk ∧
        message.payload = ciphertext a s.recvNonce chunk ∧
        s.pendingRead = record (ciphertext a s.recvNonce chunk) ++ s.pendingRead.drop n
    | .error err => err = .tooShortForHeader ∨ err = .tooShortForLength := by
  have cipher := h.cipher
  cases todo : sent.drop s.recvNonce with
  | nil =>
    rw [todo, recordsOf] at cipher
    have empty : record [] = s.pendingRead ++ record [] := by rw [(List.append_eq_nil_iff.mp cipher).1, List.nil_append]
    rcases read_partial rustls (Nat.zero_le _) (List.cons_ne_nil _ _) empty with header | length
    · rw [header]
      exact .inl rfl
    · rw [length]
      exact .inr rfl
  | cons chunk rest =>
    have good : IsChunk chunk := isChunk chunk (List.mem_of_mem_drop (todo ▸ List.mem_cons_self))
    have small := matched.length_le good s.recvNonce
    rw [todo, recordsOf] at cipher
    -- either the pending bytes stop inside the record, or the record is whole
    by_cases short : s.pendingRead.length < (record (ciphertext a s.recvNonce chunk)).length
    · obtain ⟨missing, whole⟩ := List.prefix_of_prefix_length_le (List.prefix_append _ coming)
        (cipher ▸ List.prefix_append ..) (Nat.le_of_lt short)
      have some : missing ≠ [] := by
        rintro rfl
        rw [← whole, List.append_nil] at short
        exact absurd short (Nat.lt_irrefl _)
      rcases read_partial rustls small some whole.symm with header | length
      · rw [header]
        exact .inl rfl
      · rw [length]
        exact .inr rfl
    · obtain ⟨left, whole⟩ := List.prefix_of_prefix_length_le (cipher ▸ List.prefix_append ..)
        (List.prefix_append s.pendingRead coming) (Nat.le_of_not_lt short)
      obtain ⟨message, read, payload⟩ := read_record rustls left small
      rw [← whole, read]
      exact ⟨chunk, rest, rfl, good, payload, by simp⟩

theorem Received.next {sent : List Bytes} {coming delivered : Bytes} {s : SnowyStream}
    (h : Received a sent coming delivered s) (empty : s.readBuffer.len = 0) (offset : s.readOffset = 0)
    {chunk : Bytes} {rest : List Bytes} (todo : sent.drop s.recvNonce = chunk :: rest)
    {filled : RawVec UInt8} (contents : filled.contents = chunk) (capacity : filled.capacity = maximumPlaintextLength)
    {left : Bytes} (popped : s.pendingRead = record (ciphertext a s.recvNonce chunk) ++ left) :
    Received a sent coming delivered
      { s with pendingRead := left, readBuffer := filled, recvNonce := s.recvNonce + 1 } := by
  have inside : s.recvNonce < sent.length := by
    have := congrArg List.length todo
    simp only [List.length_drop, List.length_cons] at this
    omega
  have taken : sent.take (s.recvNonce + 1) = sent.take s.recvNonce ++ [chunk] := by
    rw [List.take_add, todo]
    rfl
  have dropped : sent.drop (s.recvNonce + 1) = rest := by
    rw [← List.drop_drop, todo]
    rfl
  refine ⟨inside, ?_, ?_, .inr capacity, .inl offset⟩
  · have plain := h.plain
    rw [bufferedPlaintext_eq_nil empty, List.append_nil] at plain
    simp only [SnowyStream.bufferedPlaintext, offset, List.drop_zero, contents, plain, taken, List.flatten_append,
      List.flatten_cons, List.flatten_nil, List.append_nil]
  · have cipher := h.cipher
    rw [popped, todo, recordsOf, List.append_assoc] at cipher
    rw [dropped]
    exact List.append_cancel_left cipher

theorem decrypt_received (uninit : UInt8) (matched : Matched a b) {sent : List Bytes} (isChunk : ∀ c ∈ sent, IsChunk c)
    {coming before : Bytes} {r put : Reading} (h : Received a sent coming (before ++ r.out) r.stream)
    (delivered : r.deliver = (false, put)) {message : OpaqueMessage} {n : Nat}
    (parsed : rustls.read r.stream.pendingRead = .ok (message, n)) :
    message.payload ≠ [] ∧ ∃ filled,
      decrypt b uninit put.stream.recvNonce message.payload put.stream.readBuffer = .plaintext filled ∧
      Received a sent coming (before ++ put.out) { put.stream with
        pendingRead := r.stream.pendingRead.drop n, readBuffer := filled, recvNonce := put.stream.recvNonce + 1 } := by
  obtain ⟨received, emptied, same⟩ := deliver_received h delivered
  obtain ⟨empty, offset⟩ := emptied rfl
  have pop := received.pop rustls matched isChunk
  rw [same, parsed] at pop
  obtain ⟨chunk, rest, todo, good, payload, whole⟩ := pop
  obtain ⟨filled, opened, contents, capacity⟩ := decrypt_chunk uninit matched good empty received.capacity
  refine ⟨?_, filled, payload ▸ opened, received.next empty offset todo contents capacity (same.trans whole)⟩
  intro none
  have length := matched.length good put.stream.recvNonce
  rw [← payload, none] at length
  cases length

theorem readReady_received (matched : Matched a b) {sent : List Bytes} (isChunk : ∀ c ∈ sent, IsChunk c)
    {coming before : Bytes} (r : Reading) (h : Received a sent coming (before ++ r.out) r.stream)
    {exit : ReadExit} {r' : Reading} (ran : r.readReady rustls b uninit = (exit, r')) :
    Received a sent coming (before ++ r'.out) r'.stream ∧ (exit = .full ∨ exit = .starved) := by
  fun_induction Reading.readReady rustls b uninit r generalizing exit r' with
  | case1 r put delivered =>
    cases ran
    exact ⟨(deliver_received h delivered).1, .inl rfl⟩
  | case2 r put delivered message n parsed popped none =>
    obtain ⟨some, -⟩ := decrypt_received uninit matched isChunk h delivered parsed
    exact absurd none some
  | case3 r put delivered message n parsed popped some buffer decrypted =>
    rename_i ih
    obtain ⟨-, filled, opened, received⟩ := decrypt_received uninit matched isChunk h delivered parsed
    cases decrypted.symm.trans opened
    exact ih received ran
  | case4 r put delivered message n parsed popped some buffer refused =>
    obtain ⟨-, filled, opened, -⟩ := decrypt_received uninit matched isChunk h delivered parsed
    cases refused.symm.trans opened
  | case5 r put delivered message n parsed popped some panicked =>
    obtain ⟨-, filled, opened, -⟩ := decrypt_received uninit matched isChunk h delivered parsed
    cases panicked.symm.trans opened
  | case6 r put delivered parsed =>
    cases ran
    exact ⟨(deliver_received h delivered).1, .inr rfl⟩
  | case7 r put delivered parsed =>
    cases ran
    exact ⟨(deliver_received h delivered).1, .inr rfl⟩
  | case8 r put delivered err notHeader notLength parsed =>
    obtain ⟨received, -, same⟩ := deliver_received h delivered
    have pop := received.pop rustls matched isChunk
    rw [same, parsed] at pop
    rcases pop with header | length
    · exact absurd header notHeader
    · exact absurd length notLength

def Reading.Progress.state : Reading.Progress → Reading × Bytes
  | .answered _ r wire | .more r wire => (r, wire)

/-- With the bytes left on the wire and those not sent yet, the reader is inside the records of `sent`. -/
def ReceivedOver (a : Noise) (sent : List Bytes) (unsent before : Bytes) (state : Reading × Bytes) : Prop :=
  Received a sent (state.2 ++ unsent) (before ++ state.1.out) state.1.stream

variable {sent : List Bytes} {unsent before wire : Bytes} {r : Reading}

theorem readBuffers_received (rustls : Rustls) (uninit : UInt8) (matched : Matched a b)
    (isChunk : ∀ c ∈ sent, IsChunk c)
    (h : ReceivedOver a sent unsent before (r, wire)) :
    ReceivedOver a sent unsent before (r.readBuffers rustls b uninit wire).state := by
  unfold Reading.readBuffers
  have ready {exit : ReadExit} {r' : Reading} (ran : r.readReady rustls b uninit = (exit, r')) :
      ReceivedOver a sent unsent before (r', wire) :=
    (readReady_received matched isChunk r h ran).1
  split
  · next ran => exact ready ran
  · next ran => exact ready ran
  · next ran => exact ready ran
  · next ran => split <;> exact ready ran

theorem readSocket_received (h : ReceivedOver a sent unsent before (r, wire)) (outcome : ReadOutcome) :
    ReceivedOver a sent unsent before (r.readSocket wire outcome).state := by
  cases outcome with
  | pending => exact h
  | failed err => exact ⟨h.nonce, h.plain, h.cipher, h.capacity, h.offset⟩
  | eof => exact h
  | arrived n =>
    unfold Reading.readSocket
    dsimp only
    split
    · exact h
    split
    · exact h
    · refine ⟨h.nonce, h.plain, ?_, h.capacity, h.offset⟩
      have moved := List.prefix_iff_eq_append.mp
        (List.take_prefix (min (n + 1) (maxWireSize - r.stream.pendingRead.length)) wire)
      have cipher := h.cipher
      dsimp only [Reading.Progress.state] at cipher ⊢
      rwa [List.append_assoc, ← List.append_assoc _ _ unsent, moved]

theorem readMore_received (rustls : Rustls) (uninit : UInt8) (matched : Matched a b) (isChunk : ∀ c ∈ sent, IsChunk c)
    (h : ReceivedOver a sent unsent before (r, wire)) (outcomes : List ReadOutcome) :
    ReceivedOver a sent unsent before (r.readMore rustls b uninit wire outcomes).2 := by
  have either (progress : Reading.Progress) : ReceivedOver a sent unsent before progress.state →
      match progress with
      | .answered _ r left => ReceivedOver a sent unsent before (r, left)
      | .more r left => ReceivedOver a sent unsent before (r, left) := by
    intro kept
    cases progress <;> exact kept
  refine @Reading.readMore_rule rustls b uninit (fun r wire => ReceivedOver a sent unsent before (r, wire))
    (fun r wire => ReceivedOver a sent unsent before (r, wire))
    (fun _ r left => ReceivedOver a sent unsent before (r, left)) ?_ ?_ ?_ r _ wire _ _ outcomes h rfl
  · exact fun _ _ kept => either _ (readBuffers_received rustls uninit matched isChunk kept)
  · exact fun _ _ outcome kept => either _ (readSocket_received kept outcome)
  · exact fun _ _ kept => kept

theorem pollRead_received (matched : Matched a b) (isChunk : ∀ c ∈ sent, IsChunk c) {s s' : SnowyStream}
    {wire' out : Bytes} {remaining : Nat} {outcomes : List ReadOutcome} {poll : Poll Unit}
    (h : Received a sent (wire ++ unsent) before s)
    (ran : s.pollRead rustls b uninit remaining wire outcomes = (poll, s', out, wire')) :
    Received a sent (wire' ++ unsent) (before ++ out) s' := by
  rcases SnowyStream.pollRead_cases ran with ⟨-, r, rfl, rfl, more⟩ | ⟨-, rfl, rfl, rfl⟩
  · have start : ReceivedOver a sent unsent before (⟨s, remaining, [], false⟩, wire) := by
      simpa [ReceivedOver] using h
    have final := readMore_received rustls uninit matched isChunk start outcomes
    rwa [more] at final
  · rwa [List.append_nil]

/-! ## Whole runs -/

/-- The chunks sealed so far: they are what was accepted, and their records are what was emitted, or is
about to be. -/
structure Intact (a : Noise) (sent : List Bytes) (t : Link) : Prop where
  isChunk : ∀ c ∈ sent, IsChunk c
  nonce : t.writer.sendNonce = sent.length
  accepted : t.accepted = sent.flatten
  records : t.emitted ++ t.writer.unsent = recordsOf a 0 sent
  received : Received a sent (t.wire ++ t.writer.unsent) t.delivered t.reader

theorem intact_new : Intact a [] Link.new :=
  ⟨by simp, rfl, rfl, rfl, ⟨Nat.le_refl 0, rfl, rfl, .inl rfl, .inl rfl⟩⟩

theorem Received.extend {coming delivered : Bytes} {s : SnowyStream} (h : Received a sent coming delivered s)
    (chunks : List Bytes) :
    Received a (sent ++ chunks) (coming ++ recordsOf a sent.length chunks) delivered s := by
  refine ⟨?_, ?_, ?_, h.capacity, h.offset⟩
  · rw [List.length_append]
    exact Nat.le_add_right_of_le h.nonce
  · rw [List.take_append_of_le_length h.nonce]
    exact h.plain
  · rw [List.drop_append_of_le_length h.nonce, recordsOf_append, ← List.append_assoc, h.cipher, List.length_drop,
      Nat.add_sub_cancel' h.nonce]

theorem Intact.sealed {t : Link} (h : Intact a sent t) {writer : SnowyStream} {emitted : Bytes}
    {chunks : List Bytes} (sealed : Sealed a t.writer writer emitted chunks) :
    Intact a (sent ++ chunks) { t with
      writer := writer, wire := t.wire ++ emitted, emitted := t.emitted ++ emitted,
      accepted := t.accepted ++ chunks.flatten } := by
  have records := sealed.records
  rw [h.nonce] at records
  refine ⟨?_, ?_, ?_, ?_, ?_⟩
  · intro c mem
    exact (List.mem_append.mp mem).elim (h.isChunk c) (sealed.isChunk c)
  · rw [sealed.nonce, h.nonce, List.length_append]
  · rw [h.accepted, List.flatten_append]
  · dsimp only
    rw [List.append_assoc, records, ← List.append_assoc, h.records, recordsOf_append, Nat.zero_add]
  · have extended := h.received.extend chunks
    dsimp only
    rwa [List.append_assoc, records, ← List.append_assoc]

theorem intact_step (matched : Matched a b) {t next : Link} {event : LinkEvent} (inv : ∃ sent, Intact a sent t)
    (progressing : event.progressing = true) (h : t.step rustls a b uninit event = some next) :
    ∃ sent, Intact a sent next := by
  obtain ⟨sent, inv⟩ := inv
  cases event with
  | write buf outcomes =>
    cases wrote : t.writer.pollWrite a buf outcomes with
    | mk poll rest =>
      obtain ⟨writer, emitted⟩ := rest
      obtain ⟨chunks, sealed, accepted⟩ := pollWrite_spec matched buf t.writer outcomes progressing wrote
      simp only [Link.step, wrote, Option.some.injEq] at h
      subst h
      rw [accepted]
      exact ⟨sent ++ chunks, inv.sealed sealed⟩
  | flush outcomes =>
    cases flushed : t.writer.pollFlush outcomes with
    | mk poll rest =>
      obtain ⟨writer, emitted⟩ := rest
      have sealed := inv.sealed (pollFlush_spec t.writer outcomes progressing flushed)
      simp only [Link.step, flushed, Option.some.injEq] at h
      subst h
      exact ⟨sent ++ [], by simpa using sealed⟩
  | read remaining outcomes =>
    cases read : t.reader.pollRead rustls b uninit remaining t.wire outcomes with
    | mk poll rest =>
      obtain ⟨reader, out, wire⟩ := rest
      simp only [Link.step, read, Option.some.injEq] at h
      subst h
      exact ⟨sent, inv.isChunk, inv.nonce, inv.accepted, inv.records,
        pollRead_received matched inv.isChunk inv.received read⟩

theorem Received.delivered_prefix {coming delivered : Bytes} {s : SnowyStream}
    (h : Received a sent coming delivered s) : delivered <+: sent.flatten := by
  have plain : delivered <+: (sent.take s.recvNonce).flatten := ⟨_, h.plain⟩
  rw [← List.take_append_drop s.recvNonce sent, List.flatten_append]
  exact plain.trans (List.prefix_append ..)

theorem recordsOf_eq_nil {nonce : Nat} {chunks : List Bytes} (h : recordsOf a nonce chunks = []) : chunks = [] := by
  cases chunks with
  | nil => rfl
  | cons chunk rest => simp [recordsOf, record] at h

theorem Received.complete {delivered : Bytes} {s : SnowyStream} (h : Received a sent [] delivered s)
    (pending : s.pendingRead = []) (buffered : s.bufferedPlaintext = []) : delivered = sent.flatten := by
  have cipher := h.cipher
  rw [pending] at cipher
  have passed : sent.drop s.recvNonce = [] := recordsOf_eq_nil cipher.symm
  have plain := h.plain
  rwa [buffered, List.append_nil, List.take_of_length_le (List.drop_eq_nil_iff.mp passed)] at plain

/-- What the reader delivers is what the writer accepted, in order and without a gap, and every byte
emitted or still to be emitted belongs to a complete record. -/
theorem tunnel_integrity (rustls : Rustls) (a b : Noise) (uninit : UInt8) (matched : Matched a b)
    (events : List LinkEvent) (progressing : ∀ event ∈ events, event.progressing = true) (t : Link)
    (h : run (Link.step rustls a b uninit) .new events = some t) :
    t.delivered <+: t.accepted ∧ (t.drained → t.delivered = t.accepted) ∧
      CompleteRecords (t.emitted ++ t.writer.unsent) := by
  obtain ⟨sent, inv⟩ : ∃ sent, Intact a sent t :=
    guarded_invariant (fun _ _ _ inv ok stepped => intact_step matched inv ok stepped)
      ⟨[], intact_new⟩ (guarded_of_forall progressing _) h
  refine ⟨inv.accepted ▸ inv.received.delivered_prefix, ?_, ?_⟩
  · rintro ⟨written, arrived, pending, buffered⟩
    have received := inv.received
    rw [arrived, SnowyStream.unsent, written, List.drop_nil] at received
    rw [inv.accepted]
    exact received.complete pending buffered
  · rw [inv.records]
    exact completeRecords_recordsOf matched inv.isChunk 0

def plainNoise : Noise :=
  ⟨fun _ p => some (p ++ List.replicate aeadTagLength 0), fun _ c => some (c.take (c.length - aeadTagLength))⟩

theorem matched_plainNoise : Matched plainNoise plainNoise := by
  intro nonce plaintext _
  exact ⟨_, rfl, by simp, by simp [plainNoise]⟩

def splitTransfer : List LinkEvent :=
  [.write [1, 2, 3] [.wrote 4, .pending], .read 2 [.arrived 9], .flush [.wrote 30],
    .read 2 [.arrived 3, .arrived 100], .read 2 []]

theorem tunnel_integrity_split :
    ∃ t, run (Link.step (.registered fun _ => none) plainNoise plainNoise 0) .new splitTransfer = some t ∧
      t.accepted = [1, 2, 3] ∧ t.delivered = t.accepted := by
  have evaluated : (run (Link.step (.registered fun _ => none) plainNoise plainNoise 0) .new splitTransfer).map
      (fun t => (decide t.drained, t.accepted)) = some (true, [1, 2, 3]) := by decide +kernel
  obtain ⟨t, ran, result⟩ := Option.map_eq_some_iff.mp evaluated
  obtain ⟨drained, accepted⟩ := Prod.mk.injEq .. ▸ result
  have integrity := tunnel_integrity _ _ _ _ matched_plainNoise splitTransfer (by decide) t ran
  exact ⟨t, ran, accepted, integrity.2.1 (of_decide_eq_true drained)⟩

end NoisyShuttle.Tunnel
