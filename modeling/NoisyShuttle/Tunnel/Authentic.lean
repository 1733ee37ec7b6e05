import NoisyShuttle.Lib.Codec
import NoisyShuttle.Tunnel.Integrity

/-!
# Where delivered bytes come from

One `SnowyStream` is read over whatever arrives on its socket, in calls of any kind. The frames popped
off the wire are followed with the plaintext of those that Noise accepted; what the caller is given is
compared with that plaintext.
-/

namespace NoisyShuttle.Tunnel

/-- What `read_message` gives with the room there is in `read_buffer`. -/
def Noise.opens (noise : Noise) (nonce : Nat) (payload : Bytes) : Option Bytes :=
  (noise.readMessage nonce payload).filter (·.length ≤ maximumPlaintextLength)

structure Reader where
  stream : SnowyStream
  wire : Bytes
  arrived : Bytes
  delivered : Bytes
  refused : Bool

def Reader.new : Reader := ⟨.new, [], [], [], false⟩

inductive ReaderEvent where
  | arrive (bytes : Bytes)
  | read (remaining : Nat) (outcomes : List ReadOutcome)

def Poll.noiseError : Poll Unit → Bool
  | .ready (.error err) => err = noiseFailed
  | _ => false

/-- No call with room in its buffer follows one that returned the error of Noise. -/
def Reader.permits (t : Reader) : ReaderEvent → Bool
  | .arrive _ => true
  | .read remaining _ => !t.refused || remaining = 0

section System

variable (rustls : Rustls) (noise : Noise) (uninit : UInt8)

/-- `refused`: a call returned the error of Noise and left bytes in `read_buffer`. -/
def Reader.step (t : Reader) : ReaderEvent → Option Reader
  | .arrive bytes => some { t with wire := t.wire ++ bytes, arrived := t.arrived ++ bytes }
  | .read remaining outcomes =>
    let (poll, stream, out, wire) := t.stream.pollRead rustls noise uninit remaining t.wire outcomes
    some { t with
      stream := stream
      wire := wire
      delivered := t.delivered ++ out
      refused := t.refused || poll.noiseError && stream.bufferedPlaintext ≠ [] }

def IsFrame (frame payload : Bytes) : Prop :=
  ∃ message, rustls.read frame = .ok (message, frame.length) ∧ message.payload = payload

/-- The frames popped so far, with the nonce they lead to and the plaintext of those that were accepted. -/
inductive Opened : Bytes → Nat → Bytes → Prop where
  | start : Opened [] 0 []
  | empty {popped plain frame : Bytes} {nonce : Nat} (before : Opened popped nonce plain)
      (isFrame : IsFrame rustls frame []) : Opened (popped ++ frame) nonce plain
  | accepted {popped plain frame payload plaintext : Bytes} {nonce : Nat} (before : Opened popped nonce plain)
      (isFrame : IsFrame rustls frame payload) (sealed : payload ≠ [])
      (opens : noise.opens nonce payload = some plaintext) : Opened (popped ++ frame) (nonce + 1) (plain ++ plaintext)
  | refused {popped plain frame payload : Bytes} {nonce : Nat} (before : Opened popped nonce plain)
      (isFrame : IsFrame rustls frame payload) (sealed : payload ≠ []) (opens : noise.opens nonce payload = none) :
      Opened (popped ++ frame) nonce plain

/-- Every byte the callers were given is one of an accepted record, in order and once. -/
def Reader.Authentic (t : Reader) : Prop :=
  ∃ popped plain, Opened rustls noise popped t.stream.recvNonce plain ∧ popped <+: t.arrived ∧ t.delivered <+: plain

/-- The frames popped off `arrived`, with `pending` and `wire` behind them. -/
def Traced (arrived wire pending : Bytes) (nonce : Nat) (plain : Bytes) : Prop :=
  ∃ popped, Opened rustls noise popped nonce plain ∧ popped ++ (pending ++ wire) = arrived

/-- What is in `read_buffer` continues what was delivered. -/
structure Fresh (arrived wire delivered : Bytes) (s : SnowyStream) : Prop where
  traced : Traced rustls noise arrived wire s.pendingRead s.recvNonce (delivered ++ s.bufferedPlaintext)
  capacity : s.readBuffer.capacity = 0 ∨ s.readBuffer.capacity = maximumPlaintextLength
  offset : s.readOffset = 0 ∨ s.readOffset < s.readBuffer.len

/-- Everything accepted was delivered, and `read_buffer` is full all the same. -/
structure Stale (arrived wire delivered : Bytes) (s : SnowyStream) : Prop where
  traced : Traced rustls noise arrived wire s.pendingRead s.recvNonce delivered
  full : s.readBuffer.len = maximumPlaintextLength
  capacity : s.readBuffer.capacity = maximumPlaintextLength
  offset : s.readOffset = 0
  readable : s.state.readable = true

end System

variable {rustls : Rustls} {noise : Noise} {uninit : UInt8}

/-! ## One frame -/

theorem OpaqueMessage.read_take {bytes : Bytes} {message : OpaqueMessage} {n : Nat}
    (h : rustls.read bytes = .ok (message, n)) :
    rustls.read (bytes.take n) = .ok (message, n) := by
  obtain ⟨typ, vhi, vlo, lhi, llo, rest, rfl, length, used, again⟩ := rustls.read_ok h
  have front := again []
  rw [List.append_nil] at front
  rwa [used, ← length, take_record, length, ← used]

theorem isFrame_take {pending : Bytes} {message : OpaqueMessage} {n : Nat}
    (parsed : rustls.read pending = .ok (message, n)) :
    IsFrame rustls (pending.take n) message.payload := by
  have used := OpaqueMessage.read_used parsed
  refine ⟨message, ?_, rfl⟩
  rw [List.length_take_of_le used.2]
  exact OpaqueMessage.read_take parsed

/-- A frame is read as such whatever follows it. -/
theorem IsFrame.read_append {frame payload : Bytes} (isFrame : IsFrame rustls frame payload) (rest : Bytes) :
    ∃ message, rustls.read (frame ++ rest) = .ok (message, frame.length) ∧ message.payload = payload := by
  obtain ⟨message, parsed, rfl⟩ := isFrame
  obtain ⟨typ, vhi, vlo, lhi, llo, left, whole, length, used, again⟩ := rustls.read_ok parsed
  have nothing : left = [] := by
    rw [whole] at used
    simp only [List.length_cons, List.length_append, length, tlsRecordHeaderLength] at used
    exact List.length_eq_zero_iff.mp (by omega)
  refine ⟨message, ?_, rfl⟩
  rw [whole, nothing, List.append_nil] at again ⊢
  exact again rest

theorem isFrame_prefixFree : PrefixFree fun frame => ∃ payload, IsFrame rustls frame payload := by
  rintro a b ⟨_, first⟩ ⟨_, second⟩ ⟨rest, rfl⟩
  obtain ⟨_, one, -⟩ := first.read_append rest
  obtain ⟨_, two, -⟩ := second
  rw [one, Except.ok.injEq, Prod.mk.injEq] at two
  exact (List.prefix_append a rest).eq_of_length two.2

section Opening

variable (rustls noise)

/-- What one more frame does to the nonce and the plaintext. -/
def reopen (state : Nat × Bytes) (frame : Bytes) : Nat × Bytes :=
  match rustls.read frame with
  | .ok (message, _) =>
    if message.payload = [] then state
    else match noise.opens state.1 message.payload with
      | some plaintext => (state.1 + 1, state.2 ++ plaintext)
      | none => state
  | .error _ => state

end Opening

theorem reopen_grows (frames : List Bytes) (state : Nat × Bytes) :
    state.1 ≤ (frames.foldl (reopen rustls noise) state).1 ∧
      ((frames.foldl (reopen rustls noise) state).1 = state.1 → frames.foldl (reopen rustls noise) state = state) := by
  induction frames generalizing state with
  | nil => exact ⟨Nat.le_refl _, fun _ => rfl⟩
  | cons frame frames ih =>
    obtain ⟨le, same⟩ := ih (reopen rustls noise state frame)
    have step : reopen rustls noise state frame = state ∨ (reopen rustls noise state frame).1 = state.1 + 1 := by
      unfold reopen
      repeat' split
      all_goals first | exact .inl rfl | exact .inr rfl
    rw [List.foldl_cons]
    rcases step with stays | grows
    · rw [stays] at le same ⊢
      exact ⟨le, same⟩
    · exact ⟨by omega, fun back => absurd back (by omega)⟩

variable {arrived wire pending delivered plain : Bytes} {nonce : Nat} {s : SnowyStream}

/-- A sequence of frames, and the nonce and plaintext it leads to. -/
structure Frames (rustls : Rustls) (noise : Noise) (frames : List Bytes) (popped : Bytes) (state : Nat × Bytes) :
    Prop where
  all : ∀ frame ∈ frames, ∃ payload, IsFrame rustls frame payload
  whole : frames.flatten = popped
  folded : frames.foldl (reopen rustls noise) (0, []) = state

theorem Frames.snoc {frames : List Bytes} {popped frame payload : Bytes} {state : Nat × Bytes}
    (h : Frames rustls noise frames popped state) (isFrame : IsFrame rustls frame payload) :
    Frames rustls noise (frames ++ [frame]) (popped ++ frame) (reopen rustls noise state frame) where
  all := List.forall_mem_append.mpr ⟨h.all, List.forall_mem_singleton.mpr ⟨payload, isFrame⟩⟩
  whole := by rw [List.flatten_concat, h.whole]
  folded := by rw [List.foldl_concat, h.folded]

theorem Opened.frames {popped : Bytes} (opened : Opened rustls noise popped nonce plain) :
    ∃ frames, Frames rustls noise frames popped (nonce, plain) := by
  induction opened with
  | start => exact ⟨[], nofun, rfl, rfl⟩
  | empty before isFrame ih =>
    obtain ⟨frames, h⟩ := ih
    have more := h.snoc isFrame
    obtain ⟨message, parsed, nothing⟩ := isFrame
    simp only [reopen, parsed, nothing, if_true] at more
    exact ⟨_, more⟩
  | accepted before isFrame sealed opens ih =>
    obtain ⟨frames, h⟩ := ih
    have more := h.snoc isFrame
    obtain ⟨message, parsed, rfl⟩ := isFrame
    simp only [reopen, parsed, sealed, opens, if_false] at more
    exact ⟨_, more⟩
  | refused before isFrame sealed opens ih =>
    obtain ⟨frames, h⟩ := ih
    have more := h.snoc isFrame
    obtain ⟨message, parsed, rfl⟩ := isFrame
    simp only [reopen, parsed, sealed, opens, if_false] at more
    exact ⟨_, more⟩

theorem Frames.plain_eq {frames frames' : List Bytes} {popped popped' plain' : Bytes}
    (h : Frames rustls noise frames popped (nonce, plain)) (h' : Frames rustls noise frames' popped' (nonce, plain'))
    (less : frames <+: frames') : plain = plain' := by
  obtain ⟨more, rfl⟩ := less
  have folded := h'.folded
  rw [List.foldl_append, h.folded] at folded
  have same := (reopen_grows more (nonce, plain)).2 (by rw [folded])
  exact congrArg Prod.snd (same.symm.trans folded)

/-- The nonce determines how much of what arrived was accepted. -/
theorem Opened.unique {popped popped' plain' : Bytes} (opened : Opened rustls noise popped nonce plain)
    (other : Opened rustls noise popped' nonce plain') (first : popped <+: arrived) (second : popped' <+: arrived) :
    plain = plain' := by
  obtain ⟨frames, h⟩ := opened.frames
  obtain ⟨frames', h'⟩ := other.frames
  rw [← h.whole] at first
  rw [← h'.whole] at second
  rcases items_prefix isFrame_prefixFree h.all h'.all first second with less | more
  · exact h.plain_eq h' less
  · exact (h'.plain_eq h more).symm

section Traced

variable {message : OpaqueMessage} {n : Nat} (traced : Traced rustls noise arrived wire pending nonce plain)
include traced

theorem Traced.pop (nonce' : Nat) (plain' : Bytes)
    (opened : ∀ popped, Opened rustls noise popped nonce plain →
      Opened rustls noise (popped ++ pending.take n) nonce' plain') :
    Traced rustls noise arrived wire (pending.drop n) nonce' plain' := by
  obtain ⟨popped, before, whole⟩ := traced
  refine ⟨popped ++ pending.take n, opened popped before, ?_⟩
  rw [List.append_assoc, ← List.append_assoc (pending.take n), List.take_append_drop, whole]

variable (parsed : rustls.read pending = .ok (message, n))
include parsed

theorem Traced.empty (none : message.payload = []) : Traced rustls noise arrived wire (pending.drop n) nonce plain :=
  traced.pop nonce plain fun _ before => .empty before (none ▸ isFrame_take parsed)

theorem Traced.accepted {plaintext : Bytes} (sealed : message.payload ≠ [])
    (opens : noise.opens nonce message.payload = some plaintext) :
    Traced rustls noise arrived wire (pending.drop n) (nonce + 1) (plain ++ plaintext) :=
  traced.pop (nonce + 1) (plain ++ plaintext) fun _ before => .accepted before (isFrame_take parsed) sealed opens

theorem Traced.refused (sealed : message.payload ≠ []) (opens : noise.opens nonce message.payload = none) :
    Traced rustls noise arrived wire (pending.drop n) nonce plain :=
  traced.pop nonce plain fun _ before => .refused before (isFrame_take parsed) sealed opens

end Traced

/-- What `decrypt` leaves in the buffer. A refused payload leaves it at its full length. -/
theorem decrypt_opens (noise : Noise) (uninit : UInt8) (nonce : Nat) (payload : Bytes) {buffer : RawVec UInt8}
    (empty : buffer.len = 0) (capacity : buffer.capacity = 0 ∨ buffer.capacity = maximumPlaintextLength) :
    match decrypt noise uninit nonce payload buffer with
    | .plaintext filled => noise.opens nonce payload = some filled.contents ∧ filled.capacity = maximumPlaintextLength
    | .refused filled => noise.opens nonce payload = none ∧ filled.len = maximumPlaintextLength ∧
        filled.capacity = maximumPlaintextLength
    | .panicked => False := by
  have small : buffer.capacity ≤ maximumPlaintextLength := by omega
  have reserved : (buffer.reserveExact uninit (maximumPlaintextLength - buffer.capacity)).capacity =
      maximumPlaintextLength := by
    rw [RawVec.capacity_reserveExact, empty]
    omega
  unfold decrypt Noise.opens
  rw [if_pos small]
  dsimp only
  rw [dif_pos (Nat.le_of_eq reserved.symm)]
  cases noise.readMessage nonce payload with
  | none => exact ⟨rfl, rfl, reserved⟩
  | some plaintext =>
    dsimp only
    by_cases fits : plaintext.length ≤ maximumPlaintextLength
    · have opens : Option.filter (fun x : Bytes => decide (x.length ≤ maximumPlaintextLength)) (some plaintext) =
          some plaintext := Option.filter_some_pos (decide_eq_true fits)
      rw [if_pos fits, opens]
      refine ⟨congrArg some (RawVec.contents_truncate_overwrite fits).symm, ?_⟩
      exact (RawVec.capacity_overwrite (Nat.le_trans fits (Nat.le_of_eq reserved.symm))).trans reserved
    · rw [if_neg fits, Option.filter_some_neg (by simpa using fits)]
      exact ⟨rfl, rfl, reserved⟩

/-! ## One call -/

section Call

variable (rustls noise) (arrived wire lead before : Bytes)

/-- A call that has put `lead` and then plaintext into the caller's buffer, where `read_buffer` continues
`before` and that plaintext. -/
def Fed (r : Reading) : Prop := ∃ more, r.out = lead ++ more ∧ Fresh rustls noise arrived wire (before ++ more) r.stream

def Spoiled (r : Reading) : Prop :=
  ∃ more, r.out = lead ++ more ∧ Stale rustls noise arrived wire (before ++ more) r.stream

/-- How the loop over ready frames ends: with a `read_buffer` that continues what was delivered, or with
the error of Noise. -/
inductive Ready (state : SnowyState) : ReadExit → Reading → Prop where
  | full {r : Reading} (fed : Fed rustls noise arrived wire lead before r) : Ready state .full r
  | starved {r : Reading} (fed : Fed rustls noise arrived wire lead before r)
      (same : r.stream.state = state) (nothing : r.stream.bufferedPlaintext = []) : Ready state .starved r
  | invalid {r : Reading} (fed : Fed rustls noise arrived wire lead before r) : Ready state (.failed invalidFrame) r
  | refused {r : Reading} (spoiled : state.readable = true → Spoiled rustls noise arrived wire lead before r) :
      Ready state (.failed noiseFailed) r

/-- How a call ends, with `left` of the wire. -/
inductive Answered (left : Bytes) : Poll Unit → Reading → Prop where
  | fed {poll : Poll Unit} {r : Reading} (fed : Fed rustls noise arrived left lead before r)
      (quiet : poll.noiseError = true → r.stream.bufferedPlaintext = []) : Answered left poll r
  | refused {r : Reading} (spoiled : Spoiled rustls noise arrived left lead before r) :
      Answered left (.ready (.error noiseFailed)) r

end Call

variable {lead before : Bytes} {state : SnowyState}

theorem Fed.deliver {r put : Reading} {full : Bool} (h : Fed rustls noise arrived wire lead before r)
    (delivered : r.deliver = (full, put)) :
    Delivers r put full ∧ Fed rustls noise arrived wire lead before put := by
  obtain ⟨more, out, fresh⟩ := h
  have spec := deliver_spec fresh.offset delivered
  obtain ⟨given, grown⟩ := spec.grown
  refine ⟨spec, more ++ given, by rw [← grown, out, List.append_assoc], ?_, ?_, spec.offset⟩
  · have bytes := spec.bytes
    rw [← grown, List.append_assoc, List.append_cancel_left_eq] at bytes
    rw [spec.pending, spec.nonce, List.append_assoc, List.append_assoc, bytes, ← List.append_assoc]
    exact fresh.traced
  · rw [spec.capacity]
    exact fresh.capacity

/-- With `read_buffer` handed over, everything accepted was given to the caller. -/
theorem Fed.emptied {r put : Reading} (h : Fed rustls noise arrived wire lead before r)
    (delivered : r.deliver = (false, put)) :
    Delivers r put false ∧ ∃ more, put.out = lead ++ more ∧
      (put.stream.readBuffer.capacity = 0 ∨ put.stream.readBuffer.capacity = maximumPlaintextLength) ∧
      Traced rustls noise arrived wire r.stream.pendingRead put.stream.recvNonce (before ++ more) := by
  obtain ⟨spec, more, out, fresh⟩ := h.deliver delivered
  have traced := fresh.traced
  rw [bufferedPlaintext_eq_nil (spec.emptied rfl).1, List.append_nil, spec.pending] at traced
  exact ⟨spec, more, out, fresh.capacity, traced⟩

theorem readReady_ready (r : Reading) (h : Fed rustls noise arrived wire lead before r)
    {exit : ReadExit} {r' : Reading} (ran : r.readReady rustls noise uninit = (exit, r')) :
    Ready rustls noise arrived wire lead before r.stream.state exit r' := by
  fun_induction Reading.readReady rustls noise uninit r generalizing exit r' with
  | case1 r put delivered =>
    cases ran
    exact .full (h.deliver delivered).2
  | case2 r put delivered message n parsed popped nothing =>
    rename_i ih
    obtain ⟨spec, more, out, fresh⟩ := h.deliver delivered
    have traced := fresh.traced
    rw [spec.pending] at traced
    rw [← spec.state]
    exact ih ⟨more, out, traced.empty parsed nothing, fresh.capacity, fresh.offset⟩ ran
  | case3 r put delivered message n parsed popped sealed buffer decrypted =>
    rename_i ih
    obtain ⟨spec, more, out, capacity, traced⟩ := h.emptied delivered
    obtain ⟨empty, zero⟩ := spec.emptied rfl
    have opens := decrypt_opens noise uninit popped.recvNonce message.payload empty capacity
    rw [decrypted] at opens
    have accepted := traced.accepted parsed sealed opens.1
    rw [← spec.state]
    refine ih ⟨more, out, ?_, .inr opens.2, .inl zero⟩ ran
    simpa [SnowyStream.bufferedPlaintext, zero, popped] using accepted
  | case4 r put delivered message n parsed popped sealed buffer refused =>
    obtain ⟨spec, more, out, capacity, traced⟩ := h.emptied delivered
    obtain ⟨empty, zero⟩ := spec.emptied rfl
    have opens := decrypt_opens noise uninit popped.recvNonce message.payload empty capacity
    rw [refused] at opens
    cases ran
    exact .refused fun readable => ⟨more, out, traced.refused parsed sealed opens.1, opens.2.1, opens.2.2, zero,
      spec.state.symm ▸ readable⟩
  | case5 r put delivered message n parsed popped _ panicked =>
    obtain ⟨spec, -, -, capacity, -⟩ := h.emptied delivered
    have opens := decrypt_opens noise uninit popped.recvNonce message.payload (spec.emptied rfl).1 capacity
    rw [panicked] at opens
    exact opens.elim
  | case6 r put delivered parsed =>
    cases ran
    obtain ⟨spec, fed⟩ := h.deliver delivered
    exact .starved fed spec.state (bufferedPlaintext_eq_nil (spec.emptied rfl).1)
  | case7 r put delivered parsed =>
    cases ran
    obtain ⟨spec, fed⟩ := h.deliver delivered
    exact .starved fed spec.state (bufferedPlaintext_eq_nil (spec.emptied rfl).1)
  | case8 r put delivered err notHeader notLength parsed =>
    cases ran
    obtain ⟨-, more, out, fresh⟩ := h.deliver delivered
    exact .invalid ⟨more, out, fresh.traced, fresh.capacity, fresh.offset⟩

theorem readBuffers_answered (uninit : UInt8) {r : Reading} (h : Fed rustls noise arrived wire lead before r)
    (readable : r.stream.state.readable = true) :
    match r.readBuffers rustls noise uninit wire with
    | .answered poll r' left => Answered rustls noise arrived lead before left poll r'
    | .more r' left => Fed rustls noise arrived left lead before r' ∧
        r'.stream.state.readable = true ∧ r'.stream.bufferedPlaintext = [] := by
  unfold Reading.readBuffers
  obtain ⟨exit, r', ran⟩ : ∃ exit r', r.readReady rustls noise uninit = (exit, r') := ⟨_, _, rfl⟩
  rw [ran]
  cases readReady_ready r h ran with
  | full fed => exact .fed fed nofun
  | starved fed same nothing =>
    dsimp only
    by_cases some : r'.hasRead = true
    · rw [if_pos some]
      exact .fed fed nofun
    · rw [if_neg some]
      exact ⟨fed, same ▸ readable, nothing⟩
  | invalid fed => exact .fed fed (fun error => absurd error (by decide))
  | refused spoiled => exact .refused (spoiled readable)

theorem readSocket_answered {r : Reading} (h : Fed rustls noise arrived wire lead before r)
    (readable : r.stream.state.readable = true) (nothing : r.stream.bufferedPlaintext = []) (outcome : ReadOutcome) :
    match r.readSocket wire outcome with
    | .answered poll r' left => Answered rustls noise arrived lead before left poll r'
    | .more r' left => Fed rustls noise arrived left lead before r' ∧ r'.stream.state.readable = true := by
  obtain ⟨more, out, fresh⟩ := h
  cases outcome with
  | pending => exact .fed ⟨more, out, fresh⟩ nofun
  | failed err => exact .fed ⟨more, out, fresh.traced, fresh.capacity, fresh.offset⟩ fun _ => nothing
  | eof => exact .fed ⟨more, out, fresh⟩ fun _ => nothing
  | arrived n =>
    unfold Reading.readSocket
    dsimp only
    by_cases silent : wire = []
    · rw [if_pos silent]
      exact .fed ⟨more, out, fresh⟩ nofun
    rw [if_neg silent]
    by_cases room : wire.take (min (n + 1) (maxWireSize - r.stream.pendingRead.length)) = []
    · rw [if_pos room]
      exact .fed ⟨more, out, fresh⟩ fun _ => nothing
    · rw [if_neg room]
      refine ⟨⟨more, out, ?_, fresh.capacity, fresh.offset⟩, readable⟩
      obtain ⟨popped, opened, whole⟩ := fresh.traced
      refine ⟨popped, opened, ?_⟩
      have taken := List.prefix_iff_eq_append.mp
        (List.take_prefix (min (n + 1) (maxWireSize - r.stream.pendingRead.length)) wire)
      rw [List.append_assoc, taken, whole]

theorem readMore_answered {r : Reading} (h : Fed rustls noise arrived wire lead before r)
    (readable : r.stream.state.readable = true) (outcomes : List ReadOutcome) {poll : Poll Unit} {r' : Reading}
    {left : Bytes} (ran : r.readMore rustls noise uninit wire outcomes = (poll, r', left)) :
    Answered rustls noise arrived lead before left poll r' := by
  refine @Reading.readMore_rule rustls noise uninit
    (fun r wire => Fed rustls noise arrived wire lead before r ∧ r.stream.state.readable = true)
    (fun r wire => Fed rustls noise arrived wire lead before r ∧ r.stream.state.readable = true ∧
      r.stream.bufferedPlaintext = [])
    (fun poll r left => Answered rustls noise arrived lead before left poll r) ?_ ?_ ?_ r r' wire left poll outcomes
    ⟨h, readable⟩ ran
  · rintro r wire ⟨fed, readable⟩
    exact readBuffers_answered uninit fed readable
  · rintro r wire outcome ⟨fed, readable, nothing⟩
    exact readSocket_answered fed readable nothing outcome
  · rintro r wire ⟨fed, -, -⟩
    exact .fed fed nofun

theorem pollRead_fresh {remaining : Nat} {outcomes : List ReadOutcome} {poll : Poll Unit} {s' : SnowyStream}
    {out left : Bytes} (h : Fresh rustls noise arrived wire delivered s)
    (ran : s.pollRead rustls noise uninit remaining wire outcomes = (poll, s', out, left)) :
    Fresh rustls noise arrived left (delivered ++ out) s' ∧
        (poll.noiseError = true → s'.bufferedPlaintext = []) ∨
      poll.noiseError = true ∧ Stale rustls noise arrived left (delivered ++ out) s' := by
  rcases SnowyStream.pollRead_cases ran with ⟨readable, r, rfl, rfl, more⟩ | ⟨rfl, rfl, rfl, rfl⟩
  · have start : Fed rustls noise arrived wire [] delivered ⟨s, remaining, [], false⟩ :=
      ⟨[], rfl, by rwa [List.append_nil]⟩
    cases readMore_answered start readable outcomes more with
    | fed fed quiet =>
      obtain ⟨_, out, fresh⟩ := fed
      exact .inl ⟨out ▸ fresh, quiet⟩
    | refused spoiled =>
      obtain ⟨_, out, stale⟩ := spoiled
      exact .inr ⟨rfl, out ▸ stale⟩
  · exact .inl ⟨by rwa [List.append_nil], nofun⟩

theorem Fresh.buffered (h : Fresh rustls noise arrived wire delivered s) :
    s.bufferedPlaintext.length ≤ maximumPlaintextLength := by
  have inside := s.readBuffer.len_le
  have capacity := h.capacity
  simp only [SnowyStream.bufferedPlaintext, List.length_drop, RawVec.length_contents]
  unfold RawVec.capacity at capacity
  omega

theorem Stale.buffered (h : Stale rustls noise arrived wire delivered s) :
    s.bufferedPlaintext.length = maximumPlaintextLength := by
  simp only [SnowyStream.bufferedPlaintext, h.offset, List.drop_zero, RawVec.length_contents, h.full]

/-- The bytes that a refused record left behind are handed out. -/
theorem pollRead_stale (h : Stale rustls noise arrived wire delivered s) {remaining : Nat}
    (short : remaining < maximumPlaintextLength) (outcomes : List ReadOutcome) :
    s.pollRead rustls noise uninit remaining wire outcomes =
      (.ready (.ok ()), { s with readOffset := remaining }, s.bufferedPlaintext.take remaining, wire) := by
  have some : s.readOffset < s.readBuffer.len := by rw [h.offset, h.full]; decide
  have len : min (s.readBuffer.len - s.readOffset) remaining = remaining := by rw [h.offset, h.full]; omega
  have less : s.readOffset + remaining < s.readBuffer.len := by rw [h.offset, h.full]; omega
  have delivered : Reading.deliver ⟨s, remaining, [], false⟩ =
      (true, ⟨{ s with readOffset := remaining }, 0, s.bufferedPlaintext.take remaining, decide (0 < remaining)⟩) := by
    unfold Reading.deliver
    dsimp only
    rw [if_pos some, len, if_pos less, h.offset]
    simp
  have ready : Reading.readBuffers rustls noise uninit ⟨s, remaining, [], false⟩ wire =
      .answered (.ready (.ok ()))
        ⟨{ s with readOffset := remaining }, 0, s.bufferedPlaintext.take remaining, decide (0 < remaining)⟩ wire := by
    unfold Reading.readBuffers Reading.readReady
    rw [delivered]
  unfold SnowyStream.pollRead
  rw [if_pos h.readable]
  cases outcomes <;> simp only [Reading.readMore, ready]

/-- A call with room for all of them does not stop there: it goes on as one that has put them into the
caller's buffer. -/
theorem readMore_stale (h : Stale rustls noise arrived wire delivered s) {remaining : Nat}
    (long : maximumPlaintextLength ≤ remaining) (outcomes : List ReadOutcome) :
    Reading.readMore rustls noise uninit ⟨s, remaining, [], false⟩ wire outcomes =
      Reading.readMore rustls noise uninit
        ⟨{ s with readOffset := 0, readBuffer := s.readBuffer.clear }, remaining - maximumPlaintextLength,
          s.bufferedPlaintext, true⟩ wire outcomes := by
  obtain ⟨put, given⟩ : ∃ put : Reading, put = ⟨{ s with readOffset := 0, readBuffer := s.readBuffer.clear },
    remaining - maximumPlaintextLength, s.bufferedPlaintext, true⟩ := ⟨_, rfl⟩
  have some : s.readOffset < s.readBuffer.len := by rw [h.offset, h.full]; decide
  have len : min (s.readBuffer.len - s.readOffset) remaining = maximumPlaintextLength := by
    rw [h.offset, h.full]
    omega
  have all : ¬ s.readOffset + maximumPlaintextLength < s.readBuffer.len := by rw [h.offset, h.full]; omega
  have first : Reading.deliver ⟨s, remaining, [], false⟩ = (false, put) := by
    unfold Reading.deliver
    dsimp only
    rw [if_pos some, len, if_neg all, given, List.take_of_length_le (Nat.le_of_eq h.buffered)]
    rfl
  have again : put.deliver = (false, put) := by
    rw [given]
    rfl
  have pending : put.stream.pendingRead = s.pendingRead := by rw [given]
  have ready : Reading.readReady rustls noise uninit ⟨s, remaining, [], false⟩ =
      Reading.readReady rustls noise uninit put := by
    rw [Reading.readReady, Reading.readReady, first, again, pending]
  have buffers : Reading.readBuffers rustls noise uninit ⟨s, remaining, [], false⟩ wire =
      Reading.readBuffers rustls noise uninit put wire := by
    rw [Reading.readBuffers, Reading.readBuffers, ready]
  rw [← given]
  cases outcomes <;> rw [Reading.readMore, Reading.readMore, buffers]

theorem pollRead_stale_long (h : Stale rustls noise arrived wire delivered s) {remaining : Nat}
    (long : maximumPlaintextLength ≤ remaining) {outcomes : List ReadOutcome} {poll : Poll Unit} {s' : SnowyStream}
    {out left : Bytes} (ran : s.pollRead rustls noise uninit remaining wire outcomes = (poll, s', out, left)) :
    ∃ more, out = s.bufferedPlaintext ++ more ∧ (Fresh rustls noise arrived left (delivered ++ more) s' ∨
      Stale rustls noise arrived left (delivered ++ more) s') := by
  rw [SnowyStream.pollRead, if_pos h.readable, readMore_stale h long] at ran
  obtain ⟨answer, r, wire', more⟩ : ∃ answer r wire', Reading.readMore rustls noise uninit
      ⟨{ s with readOffset := 0, readBuffer := s.readBuffer.clear }, remaining - maximumPlaintextLength,
        s.bufferedPlaintext, true⟩ wire outcomes = (answer, r, wire') := ⟨_, _, _, rfl⟩
  rw [more] at ran
  cases ran
  have start : Fed rustls noise arrived wire s.bufferedPlaintext delivered
      ⟨{ s with readOffset := 0, readBuffer := s.readBuffer.clear }, remaining - maximumPlaintextLength,
        s.bufferedPlaintext, true⟩ := by
    refine ⟨[], (List.append_nil _).symm, ?_, .inr h.capacity, .inl rfl⟩
    have cleared : SnowyStream.bufferedPlaintext { s with readOffset := 0, readBuffer := s.readBuffer.clear } = [] :=
      bufferedPlaintext_eq_nil rfl
    rw [List.append_nil, cleared, List.append_nil]
    exact h.traced
  cases readMore_answered start h.readable outcomes more with
  | fed fed _ =>
    obtain ⟨more, out, fresh⟩ := fed
    exact ⟨more, out, .inl fresh⟩
  | refused spoiled =>
    obtain ⟨more, out, stale⟩ := spoiled
    exact ⟨more, out, .inr stale⟩

/-! ## Whole runs -/

/-- Where a run is that reads no further into the bytes a refused record left behind. -/
structure Reader.Sound (rustls : Rustls) (noise : Noise) (t : Reader) : Prop where
  fresh : t.refused = false → Fresh rustls noise t.arrived t.wire t.delivered t.stream
  stale : t.refused = true → Stale rustls noise t.arrived t.wire t.delivered t.stream

theorem sound_new : Reader.new.Sound rustls noise :=
  ⟨fun _ => ⟨⟨[], .start, rfl⟩, .inl rfl, .inl rfl⟩, nofun⟩

theorem Traced.arrive (h : Traced rustls noise arrived wire pending nonce plain) (bytes : Bytes) :
    Traced rustls noise (arrived ++ bytes) (wire ++ bytes) pending nonce plain := by
  obtain ⟨popped, opened, whole⟩ := h
  exact ⟨popped, opened, by rw [← whole]; simp only [List.append_assoc]⟩

theorem step_sound {t next : Reader} {event : ReaderEvent} (sound : t.Sound rustls noise)
    (permitted : t.permits event = true) (stepped : t.step rustls noise uninit event = some next) :
    next.Sound rustls noise := by
  cases event with
  | arrive bytes =>
    cases stepped
    refine ⟨fun clean => ?_, fun refused => ?_⟩
    · obtain ⟨traced, capacity, offset⟩ := sound.fresh clean
      exact ⟨traced.arrive bytes, capacity, offset⟩
    · obtain ⟨traced, full, capacity, offset, readable⟩ := sound.stale refused
      exact ⟨traced.arrive bytes, full, capacity, offset, readable⟩
  | read remaining outcomes =>
    obtain ⟨poll, s, out, left, ran⟩ :
        ∃ poll s out left, t.stream.pollRead rustls noise uninit remaining t.wire outcomes = (poll, s, out, left) :=
      ⟨_, _, _, _, rfl⟩
    simp only [Reader.step, ran, Option.some.injEq] at stepped
    subst stepped
    cases clean : t.refused with
    | false =>
      rcases pollRead_fresh (sound.fresh clean) ran with ⟨fresh, quiet⟩ | ⟨error, stale⟩
      · have unmarked : (poll.noiseError && decide (s.bufferedPlaintext ≠ [])) = false := by
          cases error : poll.noiseError with
          | false => rfl
          | true => simp [quiet error]
        exact ⟨fun _ => fresh, fun marked => (Bool.false_ne_true (unmarked.symm.trans marked)).elim⟩
      · have some : s.bufferedPlaintext ≠ [] := by
          intro nothing
          have length := stale.buffered
          rw [nothing] at length
          cases length
        have marked : (poll.noiseError && decide (s.bufferedPlaintext ≠ [])) = true := by simp [error, some]
        exact ⟨fun unmarked => (Bool.false_ne_true (unmarked.symm.trans marked)).elim, fun _ => stale⟩
    | true =>
      have zero : remaining = 0 := by simpa [Reader.permits, clean] using permitted
      have stale := sound.stale clean
      rw [pollRead_stale stale (by rw [zero]; decide)] at ran
      obtain ⟨rfl, rfl, rfl, rfl⟩ : _ ∧ _ ∧ _ ∧ _ := by simpa only [Prod.mk.injEq] using ran
      refine ⟨nofun, fun _ => ?_⟩
      obtain ⟨traced, full, capacity, offset, readable⟩ := stale
      refine ⟨?_, full, capacity, zero, readable⟩
      rw [zero, List.take_zero, List.append_nil]
      exact traced

theorem Traced.authentic {t : Reader} (traced : Traced rustls noise t.arrived t.wire t.stream.pendingRead
    t.stream.recvNonce plain) (given : t.delivered <+: plain) : t.Authentic rustls noise := by
  obtain ⟨popped, opened, whole⟩ := traced
  exact ⟨popped, plain, opened, ⟨_, whole⟩, given⟩

theorem Reader.Authentic.given {t : Reader} (authentic : t.Authentic rustls noise)
    (traced : Traced rustls noise t.arrived t.wire t.stream.pendingRead t.stream.recvNonce plain) :
    t.delivered <+: plain := by
  obtain ⟨popped, opened, whole⟩ := traced
  obtain ⟨popped', plain', other, inside, given⟩ := authentic
  rwa [opened.unique other ⟨_, whole⟩ inside]

theorem Reader.Sound.authentic {t : Reader} (sound : t.Sound rustls noise) : t.Authentic rustls noise := by
  cases clean : t.refused with
  | false => exact (sound.fresh clean).traced.authentic (List.prefix_append ..)
  | true => exact (sound.stale clean).traced.authentic (List.prefix_refl _)

/-- A call that reads on after a refused record is given `stray`, the bytes that record left behind, and if
there is room for all of them then `more`. Only by accident is that still the plaintext of accepted records:
the bytes of a whole record of the greatest length, opened by the call and left in `read_buffer`, are the same. -/
structure ReadsOn (rustls : Rustls) (noise : Noise) (t : Reader) (remaining : Nat) (next : Reader)
    (stray more : Bytes) : Prop where
  length : stray.length = min remaining maximumPlaintextLength
  delivered : next.delivered = t.delivered ++ stray ++ more
  short : remaining < maximumPlaintextLength →
    more = [] ∧ next.stream.recvNonce = t.stream.recvNonce ∧ next.stream.pendingRead = t.stream.pendingRead
  accident : next.Authentic rustls noise →
    maximumPlaintextLength ≤ remaining ∧ stray ++ more = more ++ next.stream.bufferedPlaintext

section ReadsOn

variable {t next : Reader} {remaining : Nat} {outcomes : List ReadOutcome} {stray more : Bytes}

theorem Stale.readsOn_short (h : Stale rustls noise t.arrived t.wire t.delivered t.stream) (room : 0 < remaining)
    (short : remaining < maximumPlaintextLength)
    (stepped : t.step rustls noise uninit (.read remaining outcomes) = some next) :
    ReadsOn rustls noise t remaining next (t.stream.bufferedPlaintext.take remaining) [] := by
  simp only [Reader.step, pollRead_stale h short, Option.some.injEq] at stepped
  subst stepped
  have length : (t.stream.bufferedPlaintext.take remaining).length = remaining := by
    rw [List.length_take, h.buffered]
    omega
  refine ⟨by rw [length]; omega, (List.append_nil _).symm, fun _ => ⟨rfl, rfl, rfl⟩, fun authentic => ?_⟩
  -- nothing was opened, so there is no plaintext these bytes could be of
  have longer := (authentic.given h.traced).length_le
  rw [List.length_append, length] at longer
  omega

theorem Stale.readsOn_long (h : Stale rustls noise t.arrived t.wire t.delivered t.stream)
    (long : maximumPlaintextLength ≤ remaining)
    (stepped : t.step rustls noise uninit (.read remaining outcomes) = some next) :
    ∃ more, ReadsOn rustls noise t remaining next t.stream.bufferedPlaintext more := by
  obtain ⟨poll, s, out, left, ran⟩ :
      ∃ poll s out left, t.stream.pollRead rustls noise uninit remaining t.wire outcomes = (poll, s, out, left) :=
    ⟨_, _, _, _, rfl⟩
  simp only [Reader.step, ran, Option.some.injEq] at stepped
  subst stepped
  obtain ⟨more, rfl, left⟩ := pollRead_stale_long h long ran
  refine ⟨more, by rw [h.buffered]; omega, (List.append_assoc ..).symm, fun short => absurd long (by omega),
    fun authentic => ⟨long, ?_⟩⟩
  rcases left with fresh | stale
  · have given := authentic.given fresh.traced
    rw [List.append_assoc, List.prefix_append_right_inj] at given
    refine given.eq_of_length_le ?_
    rw [List.length_append, List.length_append, h.buffered]
    have := fresh.buffered
    omega
  · have longer := (authentic.given stale.traced).length_le
    simp only [List.length_append, h.buffered] at longer
    exact absurd longer (by simp [maximumPlaintextLength, maximumCiphertextLength, aeadTagLength])

theorem ReadsOn.not_authentic (h : ReadsOn rustls noise t remaining next stray more)
    (less : next.stream.bufferedPlaintext.length < maximumPlaintextLength) : ¬ next.Authentic rustls noise := by
  intro authentic
  obtain ⟨long, same⟩ := h.accident authentic
  have lengths := congrArg List.length same
  rw [List.length_append, List.length_append, h.length] at lengths
  omega

end ReadsOn

/-- Without a call that reads on after a refused record, callers are given accepted plaintext only. The
first such call is given bytes of no record: what was delivered before it is all the plaintext there was. -/
theorem delivered_authentic (rustls : Rustls) (noise : Noise) (uninit : UInt8) (events : List ReaderEvent) (t : Reader)
    (permitted : Guarded (Reader.step rustls noise uninit) (fun t event => t.permits event = true) .new events)
    (ran : run (Reader.step rustls noise uninit) .new events = some t) :
    t.Authentic rustls noise ∧
      (t.refused = true → ∀ remaining outcomes next, 0 < remaining →
        t.step rustls noise uninit (.read remaining outcomes) = some next →
        (∃ popped, Opened rustls noise popped t.stream.recvNonce t.delivered ∧ popped <+: t.arrived) ∧
        (∃ stray more, ReadsOn rustls noise t remaining next stray more) ∧
        (next.stream.bufferedPlaintext.length < maximumPlaintextLength → ¬ next.Authentic rustls noise)) := by
  have sound := guarded_invariant (fun _ _ _ => step_sound) sound_new permitted ran
  refine ⟨sound.authentic, ?_⟩
  intro refused remaining outcomes next room stepped
  have stale := sound.stale refused
  obtain ⟨popped, opened, whole⟩ := stale.traced
  obtain ⟨stray, more, readsOn⟩ : ∃ stray more, ReadsOn rustls noise t remaining next stray more := by
    by_cases short : remaining < maximumPlaintextLength
    · exact ⟨_, _, stale.readsOn_short room short stepped⟩
    · exact ⟨_, stale.readsOn_long (Nat.le_of_not_lt short) stepped⟩
  exact ⟨⟨popped, opened, _, whole⟩, ⟨stray, more, readsOn⟩, readsOn.not_authentic⟩

def oneRecord : List ReaderEvent :=
  [.arrive (record ([1, 2, 3] ++ List.replicate aeadTagLength 0)), .read 2 [.arrived 99], .read 2 []]

theorem delivered_authentic_record :
    ∃ t, run (Reader.step (.registered fun _ => none) plainNoise 0xaa) .new oneRecord = some t ∧
      t.delivered = [1, 2, 3] ∧ t.Authentic (.registered fun _ => none) plainNoise := by
  have evaluated : (run (Reader.step (.registered fun _ => none) plainNoise 0xaa) .new oneRecord).map
      (·.delivered) = some [1, 2, 3] := by decide +kernel
  obtain ⟨t, ran, delivered⟩ := Option.map_eq_some_iff.mp evaluated
  exact ⟨t, ran, delivered, (delivered_authentic _ _ _ oneRecord t (by decide +kernel) ran).1⟩

def deafNoise : Noise := ⟨fun _ _ => none, fun _ _ => none⟩

theorem opened_deafNoise {rustls : Rustls} {popped plain : Bytes} {nonce : Nat}
    (opened : Opened rustls deafNoise popped nonce plain) : plain = [] := by
  induction opened with
  | start => rfl
  | empty _ _ ih => exact ih
  | accepted _ _ _ opens _ => cases opens
  | refused _ _ _ _ ih => exact ih

theorem delivered_stray :
    ∃ t, run (Reader.step (.registered fun _ => none) deafNoise 0xaa) .new
        [.arrive (record [1, 2, 3]), .read 2 [.arrived 99], .read 2 []] = some t ∧
      t.delivered = [0xaa, 0xaa] ∧ ¬ t.Authentic (.registered fun _ => none) deafNoise := by
  have evaluated : (run (Reader.step (.registered fun _ => none) deafNoise 0xaa) .new
      [.arrive (record [1, 2, 3]), .read 2 [.arrived 99], .read 2 []]).map (·.delivered) = some [0xaa, 0xaa] := by
    decide +kernel
  obtain ⟨t, ran, delivered⟩ := Option.map_eq_some_iff.mp evaluated
  refine ⟨t, ran, delivered, ?_⟩
  rintro ⟨popped, plain, opened, -, given⟩
  rw [opened_deafNoise opened, delivered] at given
  exact absurd given (by decide)

end NoisyShuttle.Tunnel
