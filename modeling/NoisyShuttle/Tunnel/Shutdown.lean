import NoisyShuttle.Tunnel.RecordBuffer

/-!
# The end of a stream

`poll_shutdown`, and how `poll_read` ends when the peer has shut down. The two halves of a stream share
only its state: a call of the writer leaves what was read alone, and a call of the reader what is to be
sent.
-/

namespace NoisyShuttle.Tunnel

/-- `poll_shutdown`: no more writes, then everything is flushed, and then the socket is shut down with the
answer `socket`. -/
def SnowyStream.pollShutdown (s : SnowyStream) (outcomes : List WriteOutcome) (socket : Except IoError Unit) :
    Poll Unit × SnowyStream × Bytes :=
  let s := if s.state.writeable then { s with state := s.state.shutdownWrite } else s
  match s.pollFlush outcomes with
  | (.ready (.ok ()), s, emitted) => (.ready socket, s, emitted)
  | (poll, s, emitted) => (poll, s, emitted)

def Poll.succeeded : Poll Unit → Bool
  | .ready (.ok ()) => true
  | _ => false

theorem Poll.eq_of_succeeded {poll : Poll Unit} (h : poll.succeeded = true) : poll = .ready (.ok ()) := by
  unfold Poll.succeeded at h
  split at h
  · rfl
  · cases h

/-! ## What a call leaves alone -/

variable {rustls : Rustls} {noise a b : Noise} {uninit : UInt8}

structure SameReader (s s' : SnowyStream) : Prop where
  pending : s'.pendingRead = s.pendingRead
  nonce : s'.recvNonce = s.recvNonce
  buffer : s'.readBuffer = s.readBuffer
  offset : s'.readOffset = s.readOffset
  readable : s'.state.readable = s.state.readable

structure SameWriter (s s' : SnowyStream) : Prop where
  nonce : s'.sendNonce = s.sendNonce
  unsent : s'.unsent = s.unsent
  writeable : s'.state.writeable = s.state.writeable

theorem SameReader.refl (s : SnowyStream) : SameReader s s := ⟨rfl, rfl, rfl, rfl, rfl⟩

theorem SameReader.trans {s₀ s₁ s₂ : SnowyStream} (first : SameReader s₀ s₁) (second : SameReader s₁ s₂) :
    SameReader s₀ s₂ :=
  ⟨second.pending.trans first.pending, second.nonce.trans first.nonce, second.buffer.trans first.buffer,
    second.offset.trans first.offset, second.readable.trans first.readable⟩

theorem SameWriter.refl (s : SnowyStream) : SameWriter s s := ⟨rfl, rfl, rfl⟩

theorem SameWriter.trans {s₀ s₁ s₂ : SnowyStream} (first : SameWriter s₀ s₁) (second : SameWriter s₁ s₂) :
    SameWriter s₀ s₂ :=
  ⟨second.nonce.trans first.nonce, second.unsent.trans first.unsent, second.writeable.trans first.writeable⟩

namespace SnowyState

theorem readable_shutdownWrite (state : SnowyState) : state.shutdownWrite.readable = state.readable := by
  cases state <;> rfl

theorem writeable_shutdownRead (state : SnowyState) : state.shutdownRead.writeable = state.writeable := by
  cases state <;> rfl

theorem writeable_shutdownWrite (state : SnowyState) : state.shutdownWrite.writeable = false := by
  cases state <;> rfl

end SnowyState

theorem drainWriteBuffer_reader (zeroFails : Bool) (s : SnowyStream) (outcomes : List WriteOutcome) :
    SameReader s (s.drainWriteBuffer zeroFails outcomes).stream := by
  induction outcomes generalizing s with
  | nil => exact .refl s
  | cons outcome rest ih =>
    unfold SnowyStream.drainWriteBuffer
    split
    · cases outcome with
      | pending => exact .refl s
      | failed err => exact .refl s
      | wrote n =>
        dsimp only
        split
        · exact ⟨rfl, rfl, rfl, rfl, s.state.readable_shutdownWrite⟩
        · have later := ih { s with writeOffset := s.writeOffset + (s.unsent.take n).length }
          exact ⟨later.pending, later.nonce, later.buffer, later.offset, later.readable⟩
    · exact .refl s

/-- Only `poll_write` takes a write of no byte for a shutdown. -/
theorem drainWriteBuffer_state (s : SnowyStream) (outcomes : List WriteOutcome) :
    (s.drainWriteBuffer false outcomes).stream.state = s.state := by
  induction outcomes generalizing s with
  | nil => rfl
  | cons outcome rest ih =>
    unfold SnowyStream.drainWriteBuffer
    split
    · cases outcome with
      | pending => rfl
      | failed err => rfl
      | wrote n =>
        dsimp only
        rw [if_neg (by simp)]
        exact ih _
    · rfl

theorem writeLoop_reader (rest : Bytes) (offset : Nat) (s : SnowyStream) (outcomes : List WriteOutcome)
    {poll : Poll Nat} {s' : SnowyStream} {emitted : Bytes}
    (h : SnowyStream.writeLoop noise rest offset s outcomes = (poll, s', emitted)) : SameReader s s' := by
  fun_induction SnowyStream.writeLoop noise rest offset s outcomes generalizing poll s' emitted with
  | case1 rest offset s pushed err failed =>
    cases h
    exact drainWriteBuffer_reader true s _
  | case2 rest offset s pushed blocked =>
    cases h
    exact drainWriteBuffer_reader true s _
  | case3 offset s pushed drained =>
    cases h
    exact (drainWriteBuffer_reader true s _).trans ⟨rfl, rfl, rfl, rfl, rfl⟩
  | case4 rest offset s pushed drained cleared more =>
    cases h
    exact (drainWriteBuffer_reader true s _).trans ⟨rfl, rfl, rfl, rfl, rfl⟩
  | case5 rest offset s outcomes pushed drained cleared more chunk c wrote framed poll s₁ =>
    rename_i emitted₁ next ih
    cases h
    have later := ih next
    exact (drainWriteBuffer_reader true s outcomes).trans
      ⟨later.pending, later.nonce, later.buffer, later.offset, later.readable⟩

theorem pollWrite_reader {s s' : SnowyStream} {buf emitted : Bytes} {outcomes : List WriteOutcome} {poll : Poll Nat}
    (h : s.pollWrite noise buf outcomes = (poll, s', emitted)) : SameReader s s' := by
  unfold SnowyStream.pollWrite at h
  split at h
  · exact writeLoop_reader buf 0 s outcomes h
  · cases h
    exact .refl s

theorem pollFlush_reader {s s' : SnowyStream} {emitted : Bytes} {outcomes : List WriteOutcome} {poll : Poll Unit}
    (h : s.pollFlush outcomes = (poll, s', emitted)) : SameReader s s' ∧ s'.state = s.state := by
  have reader := drainWriteBuffer_reader false s outcomes
  have state := drainWriteBuffer_state s outcomes
  unfold SnowyStream.pollFlush at h
  dsimp only at h
  split at h
  · cases h
    exact ⟨reader, state⟩
  · cases h
    exact ⟨reader, state⟩
  · cases h
    exact ⟨reader.trans ⟨rfl, rfl, rfl, rfl, rfl⟩, state⟩

theorem pollFlush_ready {s s' : SnowyStream} {emitted : Bytes} {outcomes : List WriteOutcome}
    (h : s.pollFlush outcomes = (.ready (.ok ()), s', emitted)) : s'.unsent = [] := by
  unfold SnowyStream.pollFlush at h
  dsimp only at h
  split at h
  · cases h
  · cases h
  · cases h
    rfl

theorem pollShutdown_cases {s s' : SnowyStream} {emitted : Bytes} {outcomes : List WriteOutcome}
    {socket : Except IoError Unit} {poll : Poll Unit} (h : s.pollShutdown outcomes socket = (poll, s', emitted)) :
    ∃ shut : SnowyStream, SameReader s shut ∧ shut.unsent = s.unsent ∧ shut.sendNonce = s.sendNonce ∧
      shut.state.writeable = false ∧ ∃ flushed, shut.pollFlush outcomes = (flushed, s', emitted) ∧
        (poll.succeeded = true → flushed = .ready (.ok ())) := by
  obtain ⟨shut, given⟩ : ∃ shut : SnowyStream,
      shut = if s.state.writeable then { s with state := s.state.shutdownWrite } else s := ⟨_, rfl⟩
  have facts : SameReader s shut ∧ shut.unsent = s.unsent ∧ shut.sendNonce = s.sendNonce ∧
      shut.state.writeable = false := by
    rw [given]
    split
    · exact ⟨⟨rfl, rfl, rfl, rfl, s.state.readable_shutdownWrite⟩, rfl, rfl, s.state.writeable_shutdownWrite⟩
    · next closed => exact ⟨.refl s, rfl, rfl, Bool.eq_false_iff.mpr closed⟩
  obtain ⟨reader, unsent, nonce, writeable⟩ := facts
  refine ⟨shut, reader, unsent, nonce, writeable, ?_⟩
  unfold SnowyStream.pollShutdown at h
  dsimp only at h
  rw [← given] at h
  split at h
  · next flushed =>
    cases h
    exact ⟨_, flushed, fun _ => rfl⟩
  · next flushed _ _ other ran =>
    cases h
    exact ⟨_, ran, Poll.eq_of_succeeded⟩

theorem deliver_writer {r put : Reading} {full : Bool} (h : r.deliver = (full, put)) :
    SameWriter r.stream put.stream := by
  unfold Reading.deliver at h
  split at h
  · dsimp only at h
    split at h <;> cases h <;> exact ⟨rfl, rfl, rfl⟩
  · cases h
    exact .refl _

theorem readReady_writer (r : Reading) {exit : ReadExit} {r' : Reading}
    (ran : r.readReady rustls noise uninit = (exit, r')) : SameWriter r.stream r'.stream := by
  fun_induction Reading.readReady rustls noise uninit r generalizing exit r' with
  | case1 r put delivered =>
    cases ran
    exact deliver_writer delivered
  | case2 r put delivered message n parsed popped nothing =>
    rename_i ih
    have later := ih ran
    exact (deliver_writer delivered).trans ⟨later.nonce, later.unsent, later.writeable⟩
  | case3 r put delivered message n parsed popped _ buffer decrypted =>
    rename_i ih
    have later := ih ran
    exact (deliver_writer delivered).trans ⟨later.nonce, later.unsent, later.writeable⟩
  | case4 r put delivered message n parsed popped _ buffer =>
    cases ran
    exact (deliver_writer delivered).trans ⟨rfl, rfl, rfl⟩
  | case5 r put delivered message n parsed popped _ =>
    cases ran
    exact (deliver_writer delivered).trans ⟨rfl, rfl, rfl⟩
  | case6 r put delivered parsed =>
    cases ran
    exact deliver_writer delivered
  | case7 r put delivered parsed =>
    cases ran
    exact deliver_writer delivered
  | case8 r put delivered err notHeader notLength parsed =>
    cases ran
    exact (deliver_writer delivered).trans ⟨rfl, rfl, put.stream.state.writeable_shutdownRead⟩

theorem readSocket_writer (r : Reading) (wire : Bytes) (outcome : ReadOutcome) :
    SameWriter r.stream (r.readSocket wire outcome).state.1.stream := by
  cases outcome with
  | pending => exact .refl _
  | eof => exact .refl _
  | failed err =>
    refine ⟨rfl, rfl, ?_⟩
    show (if _ then r.stream.state.shutdownRead else r.stream.state).writeable = _
    split
    · exact r.stream.state.writeable_shutdownRead
    · rfl
  | arrived n =>
    unfold Reading.readSocket
    dsimp only
    split
    · exact .refl _
    split
    · exact .refl _
    · exact ⟨rfl, rfl, rfl⟩

theorem readBuffers_writer (r : Reading) (wire : Bytes) :
    SameWriter r.stream (r.readBuffers rustls noise uninit wire).state.1.stream := by
  unfold Reading.readBuffers
  split
  · next ran => exact readReady_writer r ran
  · next ran => exact readReady_writer r ran
  · next ran => exact readReady_writer r ran
  · next ran => split <;> exact readReady_writer r ran

theorem readMore_writer (r : Reading) (wire : Bytes) (outcomes : List ReadOutcome) :
    SameWriter r.stream (r.readMore rustls noise uninit wire outcomes).2.1.stream := by
  refine @Reading.readMore_rule rustls noise uninit (fun r' _ => SameWriter r.stream r'.stream)
    (fun r' _ => SameWriter r.stream r'.stream) (fun _ r' _ => SameWriter r.stream r'.stream) ?_ ?_ ?_
    r _ wire _ _ outcomes (.refl _) rfl
  · intro r' left kept
    have next := kept.trans (@readBuffers_writer rustls noise uninit r' left)
    generalize r'.readBuffers rustls noise uninit left = progress at next ⊢
    cases progress <;> exact next
  · intro r' left outcome kept
    have next := kept.trans (readSocket_writer r' left outcome)
    generalize r'.readSocket left outcome = progress at next ⊢
    cases progress <;> exact next
  · exact fun _ _ kept => kept

theorem pollRead_writer {s s' : SnowyStream} {remaining : Nat} {wire out left : Bytes} {outcomes : List ReadOutcome}
    {poll : Poll Unit} (ran : s.pollRead rustls noise uninit remaining wire outcomes = (poll, s', out, left)) :
    SameWriter s s' := by
  rcases SnowyStream.pollRead_cases ran with ⟨-, r, rfl, -, more⟩ | ⟨-, rfl, -, -⟩
  · have kept := @readMore_writer rustls noise uninit ⟨s, remaining, [], false⟩ wire outcomes
    rwa [more] at kept
  · exact .refl _

theorem SameWriter.sealed {s s' : SnowyStream} (same : SameWriter s s') : Sealed a s s' [] [] :=
  ⟨by simp, same.nonce, by simp [same.unsent, recordsOf]⟩

theorem SameReader.received {sent : List Bytes} {coming delivered : Bytes} {s s' : SnowyStream}
    (same : SameReader s s') (h : Received a sent coming delivered s) : Received a sent coming delivered s' := by
  have buffered : s'.bufferedPlaintext = s.bufferedPlaintext := by
    rw [SnowyStream.bufferedPlaintext, same.buffer, same.offset, SnowyStream.bufferedPlaintext]
  refine ⟨?_, ?_, ?_, ?_, ?_⟩
  · rw [same.nonce]
    exact h.nonce
  · rw [buffered, same.nonce]
    exact h.plain
  · rw [same.pending, same.nonce]
    exact h.cipher
  · rw [same.buffer]
    exact h.capacity
  · rw [same.offset, same.buffer]
    exact h.offset

theorem pollShutdown_sealed {s s' : SnowyStream} {emitted : Bytes} {outcomes : List WriteOutcome}
    {socket : Except IoError Unit} {poll : Poll Unit} (progressing : outcomes.all WriteOutcome.progressing = true)
    (h : s.pollShutdown outcomes socket = (poll, s', emitted)) :
    Sealed a s s' emitted [] ∧ SameReader s s' ∧ s'.state.writeable = false ∧
      (poll.succeeded = true → s'.unsent = []) := by
  obtain ⟨shut, reader, unsent, nonce, writeable, flushed, ran, ready⟩ := pollShutdown_cases h
  have sealed : Sealed a shut s' emitted [] := pollFlush_spec shut outcomes progressing ran
  obtain ⟨later, state⟩ := pollFlush_reader ran
  refine ⟨⟨sealed.isChunk, ?_, ?_⟩, reader.trans later, ?_, ?_⟩
  · rw [sealed.nonce, nonce]
  · rw [sealed.records, unsent, nonce]
  · rw [state]
    exact writeable
  · intro succeeded
    rw [ready succeeded] at ran
    exact pollFlush_ready ran

/-! ## A call of the reader -/

/-- The rule for the loop when its reads of the socket are known to meet `ok`. -/
theorem Reading.readMore_rule_reads {ok : SocketRead → Prop} {Inv At : Reading → Bytes → Prop}
    {Done : Poll Unit → Reading → Bytes → Prop}
    (buffers : ∀ r wire, Inv r wire →
      match r.readBuffers rustls noise uninit wire with
      | .answered poll r' left => Done poll r' left
      | .more r' left => At r' left)
    (socket : ∀ r wire outcome, At r wire → ok ⟨r.stream, wire, outcome⟩ →
      match r.readSocket wire outcome with
      | .answered poll r' left => Done poll r' left
      | .more r' left => Inv r' left)
    (blocked : ∀ r wire, At r wire → Done .pending r wire) {r r' : Reading} {wire left : Bytes} {poll : Poll Unit}
    {outcomes : List ReadOutcome} (h : Inv r wire)
    (honest : ∀ read ∈ r.socketReads rustls noise uninit wire outcomes, ok read)
    (ran : r.readMore rustls noise uninit wire outcomes = (poll, r', left)) : Done poll r' left := by
  induction outcomes generalizing r wire with
  | nil =>
    have first := buffers r wire h
    unfold Reading.readMore at ran
    split at ran
    · next answered =>
      rw [answered] at first
      cases ran
      exact first
    · next more =>
      rw [more] at first
      cases ran
      exact blocked _ _ first
  | cons outcome rest ih =>
    have first := buffers r wire h
    unfold Reading.readMore at ran
    unfold Reading.socketReads at honest
    split at ran
    · next answered =>
      rw [answered] at first
      cases ran
      exact first
    · next mid left₁ more =>
      rw [more] at first honest
      obtain ⟨now, later⟩ := List.forall_mem_cons.mp honest
      have second := socket _ _ outcome first now
      split at ran
      · next answered =>
        rw [answered] at second
        cases ran
        exact second
      · next again =>
        rw [again] at second later
        exact ih second later ran

/-- Of a call that has put nothing into the caller's `n` bytes, all of them are left. -/
structure Hungry (n : Nat) (r : Reading) : Prop where
  hasRead : r.hasRead = true → r.out ≠ []
  remaining : r.out = [] → r.remaining = n

def Short (rustls : Rustls) (pending : Bytes) : Prop :=
  rustls.read pending = .error .tooShortForHeader ∨
    rustls.read pending = .error .tooShortForLength

theorem deliver_hungry {n : Nat} {r put : Reading} {full : Bool} (h : Hungry n r)
    (delivered : r.deliver = (full, put)) : Hungry n put ∧ (full = true → 0 < n → put.out ≠ []) := by
  unfold Reading.deliver at delivered
  split at delivered
  · next some =>
    obtain ⟨len, given⟩ : ∃ len, len = min (r.stream.readBuffer.len - r.stream.readOffset) r.remaining := ⟨_, rfl⟩
    have inside : len ≤ r.stream.bufferedPlaintext.length := by
      rw [SnowyStream.bufferedPlaintext, List.length_drop, RawVec.length_contents]
      omega
    have nothing (silent : r.out ++ r.stream.bufferedPlaintext.take len = []) : r.out = [] ∧ len = 0 := by
      obtain ⟨before, now⟩ := List.append_eq_nil_iff.mp silent
      have length := congrArg List.length now
      rw [List.length_take, List.length_nil] at length
      exact ⟨before, by omega⟩
    dsimp only at delivered
    rw [← given] at delivered
    have hungry (stream : SnowyStream) : Hungry n
        ⟨stream, r.remaining - len, r.out ++ r.stream.bufferedPlaintext.take len, r.hasRead || 0 < len⟩ := by
      constructor
      · intro read silent
        obtain ⟨before, zero⟩ := nothing silent
        rw [zero] at read
        exact h.hasRead (by simpa using read) before
      · intro silent
        obtain ⟨before, zero⟩ := nothing silent
        show r.remaining - len = n
        rw [zero, Nat.sub_zero]
        exact h.remaining before
    split at delivered
    · next less =>
      cases delivered
      refine ⟨hungry _, fun _ positive silent => ?_⟩
      obtain ⟨before, zero⟩ := nothing silent
      have left := h.remaining before
      omega
    · cases delivered
      exact ⟨hungry _, by simp⟩
  · cases delivered
    exact ⟨h, by simp⟩

theorem readReady_hungry {n : Nat} (r : Reading)
    (offset : r.stream.readOffset = 0 ∨ r.stream.readOffset < r.stream.readBuffer.len) (h : Hungry n r)
    {exit : ReadExit} {r' : Reading} (ran : r.readReady rustls noise uninit = (exit, r')) :
    Hungry n r' ∧ (exit = .full → 0 < n → r'.out ≠ []) ∧
      (exit = .starved → r'.stream.readBuffer.len = 0 ∧ Short rustls r'.stream.pendingRead) := by
  fun_induction Reading.readReady rustls noise uninit r generalizing exit r' with
  | case1 r put delivered =>
    cases ran
    obtain ⟨hungry, some⟩ := deliver_hungry h delivered
    exact ⟨hungry, fun _ => some rfl, by simp⟩
  | case2 r put delivered message size parsed popped nothing =>
    rename_i ih
    have spec := deliver_spec offset delivered
    have hungry := (deliver_hungry h delivered).1
    exact ih spec.offset ⟨hungry.hasRead, hungry.remaining⟩ ran
  | case3 r put delivered message size parsed popped _ buffer decrypted =>
    rename_i ih
    have spec := deliver_spec offset delivered
    have hungry := (deliver_hungry h delivered).1
    exact ih (.inl (spec.emptied rfl).2) ⟨hungry.hasRead, hungry.remaining⟩ ran
  | case4 r put delivered message size parsed popped _ buffer =>
    cases ran
    have hungry := (deliver_hungry h delivered).1
    exact ⟨⟨hungry.hasRead, hungry.remaining⟩, by simp, by simp⟩
  | case5 r put delivered message size parsed popped _ =>
    cases ran
    have hungry := (deliver_hungry h delivered).1
    exact ⟨⟨hungry.hasRead, hungry.remaining⟩, by simp, by simp⟩
  | case6 r put delivered parsed =>
    cases ran
    have spec := deliver_spec offset delivered
    refine ⟨(deliver_hungry h delivered).1, by simp, fun _ => ⟨(spec.emptied rfl).1, .inl ?_⟩⟩
    rw [spec.pending, parsed]
  | case7 r put delivered parsed =>
    cases ran
    have spec := deliver_spec offset delivered
    refine ⟨(deliver_hungry h delivered).1, by simp, fun _ => ⟨(spec.emptied rfl).1, .inr ?_⟩⟩
    rw [spec.pending, parsed]
  | case8 r put delivered err notHeader notLength parsed =>
    cases ran
    have hungry := (deliver_hungry h delivered).1
    exact ⟨⟨hungry.hasRead, hungry.remaining⟩, by simp, by simp⟩

/-- Where everything sent has come in, a parser that finds too little has nothing before it. -/
theorem Received.exhausted (matched : Matched a b) {sent : List Bytes} (isChunk : ∀ c ∈ sent, IsChunk c)
    {delivered : Bytes} {s : SnowyStream} (h : Received a sent [] delivered s) (short : Short rustls s.pendingRead) :
    s.pendingRead = [] := by
  have cipher := h.cipher
  rw [List.append_nil] at cipher
  cases todo : sent.drop s.recvNonce with
  | nil =>
    rw [todo] at cipher
    exact cipher
  | cons chunk rest =>
    have good : IsChunk chunk := isChunk chunk (List.mem_of_mem_drop (todo ▸ List.mem_cons_self))
    rw [todo, recordsOf] at cipher
    obtain ⟨message, read, -⟩ := read_record rustls (recordsOf a (s.recvNonce + 1) rest)
      (matched.length_le good s.recvNonce)
    rw [← cipher] at read
    rcases short with header | length
    · cases read.symm.trans header
    · cases read.symm.trans length

section

variable {sent : List Bytes} {unsent before wire : Bytes} {closed : Bool} {n : Nat} {Failed : IoError → Prop}

/-- The reader stands before its socket with nothing to hand over. -/
structure AtWire (rustls : Rustls) (a : Noise) (sent : List Bytes) (unsent before : Bytes) (n : Nat) (r : Reading)
    (wire : Bytes) : Prop where
  received : ReceivedOver a sent unsent before (r, wire)
  hungry : Hungry n r
  emptied : r.stream.readBuffer.len = 0
  short : Short rustls r.stream.pendingRead

/-- How a call may end: an error is one of the socket, and no byte for a caller with room is the end of all
that was sent. -/
structure Ends (Failed : IoError → Prop) (closed : Bool) (n : Nat) (poll : Poll Unit) (r : Reading) (left : Bytes) :
    Prop where
  runs : poll ≠ .panicked
  failed : ∀ err, poll = .ready (.error err) → Failed err
  ended : poll = .ready (.ok ()) → r.out = [] → 0 < n →
    closed = true ∧ left = [] ∧ r.stream.pendingRead = [] ∧ r.stream.readBuffer.len = 0

theorem Ends.some {r : Reading} {left : Bytes} (some : 0 < n → r.out ≠ []) :
    Ends Failed closed n (.ready (.ok ())) r left :=
  ⟨by simp, by simp, fun _ silent positive => absurd silent (some positive)⟩

theorem readBuffers_ends (matched : Matched a b) (isChunk : ∀ c ∈ sent, IsChunk c) {r : Reading}
    (received : ReceivedOver a sent unsent before (r, wire)) (hungry : Hungry n r) :
    match r.readBuffers rustls b uninit wire with
    | .answered poll r' left => Ends Failed closed n poll r' left
    | .more r' left => AtWire rustls a sent unsent before n r' left := by
  unfold Reading.readBuffers
  obtain ⟨exit, r', ran⟩ : ∃ exit r', r.readReady rustls b uninit = (exit, r') := ⟨_, _, rfl⟩
  obtain ⟨kept, exits⟩ := readReady_received matched isChunk r received ran
  obtain ⟨hungry, full, starved⟩ := readReady_hungry r received.offset hungry ran
  rw [ran]
  rcases exits with rfl | rfl
  · exact .some (full rfl)
  · obtain ⟨emptied, short⟩ := starved rfl
    dsimp only
    by_cases read : r'.hasRead = true
    · rw [if_pos read]
      exact .some fun _ => hungry.hasRead read
    · rw [if_neg read]
      exact ⟨kept, hungry, emptied, short⟩

theorem readSocket_ends (matched : Matched a b) (isChunk : ∀ c ∈ sent, IsChunk c)
    (quiet : closed = true → unsent = []) {r : Reading} (h : AtWire rustls a sent unsent before n r wire)
    {outcome : ReadOutcome} (truthful : (SocketRead.mk r.stream wire outcome).truthful closed = true)
    (failed : ∀ err, outcome = .failed err → Failed err) :
    match r.readSocket wire outcome with
    | .answered poll r' left => Ends Failed closed n poll r' left
    | .more r' left => ReceivedOver a sent unsent before (r', left) ∧ Hungry n r' := by
  have kept := readSocket_received h.received outcome
  cases outcome with
  | pending => exact ⟨by simp, by simp, by simp⟩
  | failed err =>
    refine ⟨by simp, ?_, by simp⟩
    intro other same
    cases same
    exact failed err rfl
  | eof =>
    obtain ⟨shut, silent⟩ : closed = true ∧ wire = [] := by simpa [SocketRead.truthful] using truthful
    have received : Received a sent [] (before ++ r.out) r.stream := by
      have received := h.received
      unfold ReceivedOver at received
      rw [silent, quiet shut] at received
      exact received
    have nothing := received.exhausted matched isChunk h.short
    refine ⟨by simp, ?_, fun _ _ _ => ⟨shut, silent, nothing, h.emptied⟩⟩
    simp [nothing]
  | arrived m =>
    unfold Reading.readSocket at kept ⊢
    dsimp only at kept ⊢
    by_cases silent : wire = []
    · rw [if_pos silent]
      exact ⟨by simp, by simp, by simp⟩
    · rw [if_neg silent] at kept ⊢
      -- a buffer that holds part of a record has room for more of it
      have room := (read_short_begun h.short).2
      have got : wire.take (min (m + 1) (maxWireSize - r.stream.pendingRead.length)) ≠ [] := by
        intro nothing
        rcases List.take_eq_nil_iff.mp nothing with zero | empty
        · omega
        · exact silent empty
      rw [if_neg got] at kept ⊢
      exact ⟨kept, h.hungry.hasRead, h.hungry.remaining⟩

theorem pollRead_ends (matched : Matched a b) (isChunk : ∀ c ∈ sent, IsChunk c)
    (quiet : closed = true → unsent = []) {s s' : SnowyStream} {remaining : Nat} {outcomes : List ReadOutcome}
    {poll : Poll Unit} {out left : Bytes} (h : Received a sent (wire ++ unsent) before s)
    (readable : s.state.readable = true)
    (honest : ∀ read ∈ s.socketReads rustls b uninit remaining wire outcomes, read.truthful closed = true)
    (ran : s.pollRead rustls b uninit remaining wire outcomes = (poll, s', out, left)) :
    poll ≠ .panicked ∧
      (∀ err, poll = .ready (.error err) →
        ∃ read ∈ s.socketReads rustls b uninit remaining wire outcomes, read.outcome = .failed err) ∧
      (poll = .ready (.ok ()) → out = [] → 0 < remaining →
        closed = true ∧ left = [] ∧ s'.pendingRead = [] ∧ s'.bufferedPlaintext = []) := by
  have reads : s.socketReads rustls b uninit remaining wire outcomes =
      Reading.socketReads rustls b uninit ⟨s, remaining, [], false⟩ wire outcomes := if_pos readable
  obtain ⟨r, rfl, rfl, more⟩ : ∃ r : Reading, s' = r.stream ∧ out = r.out ∧
      Reading.readMore rustls b uninit ⟨s, remaining, [], false⟩ wire outcomes = (poll, r, left) := by
    unfold SnowyStream.pollRead at ran
    rw [if_pos readable] at ran
    cases ran
    exact ⟨_, rfl, rfl, rfl⟩
  rw [reads] at honest ⊢
  have start : ReceivedOver a sent unsent before (⟨s, remaining, [], false⟩, wire) := by
    simpa [ReceivedOver] using h
  obtain ⟨reported, given⟩ : ∃ reported : IoError → Prop, reported = fun err =>
      ∃ read ∈ Reading.socketReads rustls b uninit ⟨s, remaining, [], false⟩ wire outcomes,
        read.outcome = .failed err := ⟨_, rfl⟩
  have ends : Ends reported closed remaining poll r left := by
    refine @Reading.readMore_rule_reads rustls b uninit
      (fun read => read.truthful closed = true ∧ ∀ err, read.outcome = .failed err → reported err)
      (fun r wire => ReceivedOver a sent unsent before (r, wire) ∧ Hungry remaining r)
      (AtWire rustls a sent unsent before remaining) (Ends reported closed remaining) ?_ ?_ ?_ _ _ wire left poll
      outcomes ⟨start, by simp, fun _ => rfl⟩ ?_ more
    · exact fun r wire inv => readBuffers_ends matched isChunk inv.1 inv.2
    · exact fun r wire outcome atWire okay => readSocket_ends matched isChunk quiet atWire okay.1 okay.2
    · exact fun r wire _ => ⟨by simp, by simp, by simp⟩
    · intro read member
      refine ⟨honest read member, fun err failed => ?_⟩
      rw [given]
      exact ⟨read, member, failed⟩
  subst given
  obtain ⟨runs, failed, ended⟩ := ends
  refine ⟨runs, failed, fun okay silent positive => ?_⟩
  obtain ⟨shut, drained, pending, emptied⟩ := ended okay silent positive
  exact ⟨shut, drained, pending, bufferedPlaintext_eq_nil emptied⟩

end

end NoisyShuttle.Tunnel
