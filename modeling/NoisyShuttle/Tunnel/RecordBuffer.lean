import NoisyShuttle.Lib.Codec
import NoisyShuttle.Tunnel.Integrity

/-!
# Room for the record being read

Every read that `poll_read` makes of its socket, and what is in `pending_read_buffer` at that moment.
A socket with room in the buffer of the read answers with no byte only when the peer has closed the
connection and everything it sent was read.
-/

namespace NoisyShuttle.Tunnel

/-- A record as it is framed: five bytes of header, the last two of them the length of the rest. -/
def IsRecord (bytes : Bytes) : Prop :=
  ∃ typ vhi vlo lhi llo payload, bytes = typ :: vhi :: vlo :: lhi :: llo :: payload ∧ payload.length = ofBe16 lhi llo

/-- A read of the socket: the stream at that moment, what has arrived, and the answer. -/
structure SocketRead where
  stream : SnowyStream
  wire : Bytes
  outcome : ReadOutcome

/-- What a read that succeeds puts into `pending_read_buffer`. -/
def SocketRead.got (read : SocketRead) : Option Bytes :=
  match read.outcome with
  | .eof => some []
  | .arrived n =>
    if read.wire = [] then none
    else some (read.wire.take (min (n + 1) (maxWireSize - read.stream.pendingRead.length)))
  | .failed _ | .pending => none

/-- The end of the stream is told only when it is reached. -/
def SocketRead.truthful (closed : Bool) (read : SocketRead) : Bool :=
  read.outcome ≠ .eof || (closed && read.wire = [])

def Poll.unexpectedEof (poll : Poll Unit) : Prop :=
  ∃ err, poll = .ready (.error err) ∧ err.kind = .unexpectedEof

/-- One end of a connection: the peer has sent `sent`, and has closed its end or not. -/
structure Inbound where
  stream : SnowyStream
  wire : Bytes
  sent : Bytes
  closed : Bool

def Inbound.new : Inbound := ⟨.new, [], [], false⟩

inductive InboundEvent where
  | send (bytes : Bytes)
  | close
  | read (remaining : Nat) (outcomes : List ReadOutcome)

section

variable (rustls : Rustls) (noise : Noise) (uninit : UInt8)

/-- The reads of the socket in the loop `'read_more`. -/
def Reading.socketReads (r : Reading) (wire : Bytes) : List ReadOutcome → List SocketRead
  | [] =>
    match r.readBuffers rustls noise uninit wire with
    | .answered .. => []
    | .more r wire => [⟨r.stream, wire, .pending⟩]
  | outcome :: outcomes =>
    match r.readBuffers rustls noise uninit wire with
    | .answered .. => []
    | .more r wire => ⟨r.stream, wire, outcome⟩ ::
      match r.readSocket wire outcome with
      | .answered .. => []
      | .more r wire => socketReads r wire outcomes

/-- The reads of the socket in one call of `poll_read`. -/
def SnowyStream.socketReads (s : SnowyStream) (remaining : Nat) (wire : Bytes) (outcomes : List ReadOutcome) :
    List SocketRead :=
  if s.state.readable then Reading.socketReads rustls noise uninit ⟨s, remaining, [], false⟩ wire outcomes else []

def Inbound.step (t : Inbound) : InboundEvent → Option Inbound
  | .send bytes => if t.closed then none else some { t with wire := t.wire ++ bytes, sent := t.sent ++ bytes }
  | .close => some { t with closed := true }
  | .read remaining outcomes =>
    if (t.stream.socketReads rustls noise uninit remaining t.wire outcomes).all (·.truthful t.closed) then
      let (_, stream, _, wire) := t.stream.pollRead rustls noise uninit remaining t.wire outcomes
      some { t with stream := stream, wire := wire }
    else none

end

/-! ## Records -/

theorem isRecord_prefixFree : PrefixFree IsRecord := by
  rintro a b ⟨typ, vhi, vlo, lhi, llo, payload, rfl, length⟩ ⟨_, _, _, _, _, other, rfl, same⟩ ⟨rest, whole⟩
  simp only [List.cons_append, List.cons.injEq] at whole
  obtain ⟨rfl, rfl, rfl, rfl, rfl, rfl⟩ := whole
  rw [List.length_append, length] at same
  have nothing : rest = [] := List.length_eq_zero_iff.mp (by omega)
  rw [nothing, List.append_nil]

theorem begun_of_short {bytes : Bytes} (short : bytes.length < tlsRecordHeaderLength) : Begun IsRecord bytes := by
  -- zeros for what is missing of the header, and a payload of the length that is then in it
  obtain ⟨header, filled⟩ : ∃ header, header = bytes ++ List.replicate (5 - bytes.length) 0 := ⟨_, rfl⟩
  have size : header.length = 5 := by
    rw [filled, List.length_append, List.length_replicate]
    exact Nat.add_sub_cancel' (Nat.le_of_lt short)
  match header, size with
  | [typ, vhi, vlo, lhi, llo], _ =>
    refine ⟨[typ, vhi, vlo, lhi, llo] ++ List.replicate (ofBe16 lhi llo) 0,
      ⟨typ, vhi, vlo, lhi, llo, _, rfl, List.length_replicate⟩, ?_, ?_⟩
    · rw [filled, List.append_assoc]
      exact List.prefix_append ..
    · intro same
      rw [same, List.length_append] at short
      exact absurd short (by simp [tlsRecordHeaderLength])

/-- What the parser finds too short is a part of one record, and leaves room in the buffer. -/
theorem read_short_begun {rustls : Rustls} {pending : Bytes}
    (short : rustls.read pending = .error .tooShortForHeader ∨
      rustls.read pending = .error .tooShortForLength) :
    Begun IsRecord pending ∧ pending.length < maxWireSize := by
  rcases rustls.read_short short with header | ⟨typ, vhi, vlo, lhi, llo, body, rfl, part, limit⟩
  · refine ⟨begun_of_short header, Nat.lt_trans header ?_⟩
    decide
  · constructor
    · refine ⟨typ :: vhi :: vlo :: lhi :: llo :: (body ++ List.replicate (ofBe16 lhi llo - body.length) 0),
        ⟨typ, vhi, vlo, lhi, llo, _, rfl, ?_⟩, ⟨_, rfl⟩, ?_⟩
      · rw [List.length_append, List.length_replicate]
        omega
      · intro same
        have length := congrArg List.length same
        simp only [List.length_cons, List.length_append, List.length_replicate] at length
        omega
    · simp only [List.length_cons, maxWireSize, tlsRecordHeaderLength]
      omega

theorem isRecord_take {rustls : Rustls} {pending : Bytes} {message : OpaqueMessage} {n : Nat}
    (parsed : rustls.read pending = .ok (message, n)) : IsRecord (pending.take n) := by
  obtain ⟨typ, vhi, vlo, lhi, llo, rest, rfl, length, rfl, -⟩ := rustls.read_ok parsed
  refine ⟨typ, vhi, vlo, lhi, llo, message.payload, ?_, length⟩
  rw [← length, take_record]

/-! ## The buffer in one call -/

/-- Whole records have been popped; what is pending and what is on the wire follow them. -/
structure Buffered (sent wire pending : Bytes) : Prop where
  framed : ∃ records : List Bytes, (∀ bytes ∈ records, IsRecord bytes) ∧ records.flatten ++ (pending ++ wire) = sent
  room : pending.length ≤ maxWireSize

variable {rustls : Rustls} {noise : Noise} {uninit : UInt8} {sent wire pending : Bytes} {r : Reading}

theorem Buffered.pop (h : Buffered sent wire pending) {message : OpaqueMessage} {n : Nat}
    (parsed : rustls.read pending = .ok (message, n)) : Buffered sent wire (pending.drop n) := by
  obtain ⟨⟨records, all, whole⟩, room⟩ := h
  refine ⟨⟨records ++ [pending.take n], ?_, ?_⟩, ?_⟩
  · exact List.forall_mem_append.mpr ⟨all, List.forall_mem_singleton.mpr (isRecord_take parsed)⟩
  · rw [List.flatten_concat, List.append_assoc, ← List.append_assoc (pending.take n), List.take_append_drop, whole]
  · rw [List.length_drop]
    omega

theorem Buffered.arrive (h : Buffered sent wire pending) (n : Nat) :
    Buffered sent (wire.drop (wire.take (min n (maxWireSize - pending.length))).length)
      (pending ++ wire.take (min n (maxWireSize - pending.length))) := by
  obtain ⟨⟨records, all, whole⟩, room⟩ := h
  refine ⟨⟨records, all, ?_⟩, ?_⟩
  · have moved := List.prefix_iff_eq_append.mp (List.take_prefix (min n (maxWireSize - pending.length)) wire)
    rw [List.append_assoc, moved, whole]
  · rw [List.length_append, List.length_take]
    omega

theorem deliver_pending {put : Reading} {full : Bool} (delivered : r.deliver = (full, put)) :
    put.stream.pendingRead = r.stream.pendingRead := by
  unfold Reading.deliver at delivered
  split at delivered
  · dsimp only at delivered
    split at delivered <;> cases delivered <;> rfl
  · cases delivered
    rfl

/-- Where the loop over ready frames stops. -/
theorem readReady_buffered (r : Reading) (h : Buffered sent wire r.stream.pendingRead) {exit : ReadExit} {r' : Reading}
    (ran : r.readReady rustls noise uninit = (exit, r')) :
    Buffered sent wire r'.stream.pendingRead ∧
      (exit = .starved → Begun IsRecord r'.stream.pendingRead ∧ r'.stream.pendingRead.length < maxWireSize) ∧
      ∀ err, exit = .failed err → err.kind = .invalidData := by
  fun_induction Reading.readReady rustls noise uninit r generalizing exit r' with
  | case1 r put delivered =>
    cases ran
    rw [deliver_pending delivered]
    exact ⟨h, by simp, by simp⟩
  | case2 r put delivered message n parsed popped nothing =>
    rename_i ih
    exact ih (h.pop parsed) ran
  | case3 r put delivered message n parsed popped _ buffer decrypted =>
    rename_i ih
    exact ih (h.pop parsed) ran
  | case4 r put delivered message n parsed popped _ buffer refused =>
    cases ran
    refine ⟨h.pop parsed, by simp, ?_⟩
    rintro err same
    cases same
    rfl
  | case5 r put delivered message n parsed popped _ panicked =>
    cases ran
    exact ⟨h.pop parsed, by simp, by simp⟩
  | case6 r put delivered parsed =>
    cases ran
    rw [deliver_pending delivered]
    exact ⟨h, fun _ => read_short_begun (.inl parsed), by simp⟩
  | case7 r put delivered parsed =>
    cases ran
    rw [deliver_pending delivered]
    exact ⟨h, fun _ => read_short_begun (.inr parsed), by simp⟩
  | case8 r put delivered err notHeader notLength parsed =>
    cases ran
    refine ⟨?_, by simp, ?_⟩
    · show Buffered sent wire put.stream.pendingRead
      rwa [deliver_pending delivered]
    · rintro err same
      cases same
      rfl

theorem Poll.not_unexpectedEof {poll : Poll Unit} (fine : ∀ err, poll ≠ .ready (.error err)) :
    ¬ poll.unexpectedEof := by
  rintro ⟨err, same, -⟩
  exact fine err same

/-- What is in the buffer when the socket is read. -/
structure AtSocket (sent wire pending : Bytes) : Prop where
  buffered : Buffered sent wire pending
  begun : Begun IsRecord pending
  room : pending.length < maxWireSize

theorem readBuffers_buffered (h : Buffered sent wire r.stream.pendingRead) :
    match r.readBuffers rustls noise uninit wire with
    | .answered poll r' left => Buffered sent left r'.stream.pendingRead ∧ ¬ poll.unexpectedEof
    | .more r' left => AtSocket sent left r'.stream.pendingRead := by
  unfold Reading.readBuffers
  obtain ⟨exit, r', ran⟩ : ∃ exit r', r.readReady rustls noise uninit = (exit, r') := ⟨_, _, rfl⟩
  obtain ⟨kept, starved, failed⟩ := readReady_buffered r h ran
  rw [ran]
  cases exit with
  | full => exact ⟨kept, Poll.not_unexpectedEof nofun⟩
  | panicked => exact ⟨kept, Poll.not_unexpectedEof nofun⟩
  | failed err =>
    refine ⟨kept, ?_⟩
    rintro ⟨other, same, kind⟩
    cases same
    rw [failed err rfl] at kind
    cases kind
  | starved =>
    obtain ⟨begun, room⟩ := starved rfl
    dsimp only
    by_cases some : r'.hasRead = true
    · rw [if_pos some]
      exact ⟨kept, Poll.not_unexpectedEof nofun⟩
    · rw [if_neg some]
      exact ⟨kept, begun, room⟩

/-- A read after which `UnexpectedEof` is reported. -/
def SocketRead.Breaks (read : SocketRead) : Prop :=
  (read.got = some [] ∧ read.stream.pendingRead ≠ []) ∨
    ∃ err, read.outcome = .failed err ∧ err.kind = .unexpectedEof

theorem halfRead_unexpectedEof :
    (Poll.ready (if pending ≠ [] then .error halfRead else .ok ())).unexpectedEof ↔ pending ≠ [] := by
  by_cases nothing : pending = []
  · rw [if_neg (not_not.mpr nothing)]
    exact iff_of_false (Poll.not_unexpectedEof nofun) (not_not.mpr nothing)
  · rw [if_pos nothing]
    exact iff_of_true ⟨halfRead, rfl, rfl⟩ nothing

theorem SocketRead.breaks_of_got {read : SocketRead} {bytes : Bytes} (got : read.got = some bytes) :
    read.Breaks ↔ bytes = [] ∧ read.stream.pendingRead ≠ [] := by
  unfold SocketRead.Breaks
  rw [got]
  constructor
  · rintro (⟨nothing, some⟩ | ⟨err, failed, -⟩)
    · exact ⟨Option.some.inj nothing, some⟩
    · rw [SocketRead.got, failed] at got
      cases got
  · rintro ⟨rfl, some⟩
    exact .inl ⟨rfl, some⟩

theorem SocketRead.not_breaks {read : SocketRead} (got : read.got = none)
    (answered : ∀ err, read.outcome ≠ .failed err) : ¬ read.Breaks := by
  rintro (⟨nothing, -⟩ | ⟨err, failed, -⟩)
  · rw [got] at nothing
    cases nothing
  · exact answered err failed

theorem readSocket_buffered (h : Buffered sent wire r.stream.pendingRead) (outcome : ReadOutcome) :
    match r.readSocket wire outcome with
    | .answered poll r' left => Buffered sent left r'.stream.pendingRead ∧
        (poll.unexpectedEof ↔ (SocketRead.mk r.stream wire outcome).Breaks)
    | .more r' left => Buffered sent left r'.stream.pendingRead ∧ ¬ (SocketRead.mk r.stream wire outcome).Breaks := by
  cases outcome with
  | pending =>
    exact ⟨h, iff_of_false (Poll.not_unexpectedEof nofun) (SocketRead.not_breaks rfl nofun)⟩
  | failed err =>
    refine ⟨h, ?_⟩
    constructor
    · rintro ⟨other, same, kind⟩
      cases same
      exact .inr ⟨err, rfl, kind⟩
    · rintro (⟨got, -⟩ | ⟨other, failed, kind⟩)
      · cases got
      · cases failed
        exact ⟨err, rfl, kind⟩
  | eof =>
    refine ⟨h, halfRead_unexpectedEof.trans ?_⟩
    rw [@SocketRead.breaks_of_got ⟨r.stream, wire, .eof⟩ [] rfl]
    exact (and_iff_right rfl).symm
  | arrived n =>
    unfold Reading.readSocket
    dsimp only
    by_cases silent : wire = []
    · rw [if_pos silent]
      exact ⟨h, iff_of_false (Poll.not_unexpectedEof nofun) (SocketRead.not_breaks (if_pos silent) nofun)⟩
    · rw [if_neg silent]
      have got : (SocketRead.mk r.stream wire (.arrived n)).got =
          some (wire.take (min (n + 1) (maxWireSize - r.stream.pendingRead.length))) := if_neg silent
      rw [SocketRead.breaks_of_got got]
      by_cases nothing : wire.take (min (n + 1) (maxWireSize - r.stream.pendingRead.length)) = []
      · rw [if_pos nothing]
        exact ⟨h, halfRead_unexpectedEof.trans (and_iff_right nothing).symm⟩
      · rw [if_neg nothing]
        exact ⟨h.arrive (n + 1), fun both => nothing both.1⟩

/-- Every read of the socket finds room and a part of one record, and the answer is `UnexpectedEof` if one
of them breaks the call. -/
theorem readMore_reads (h : Buffered sent wire r.stream.pendingRead) (outcomes : List ReadOutcome) :
    (∀ read ∈ r.socketReads rustls noise uninit wire outcomes, AtSocket sent read.wire read.stream.pendingRead) ∧
      ((r.readMore rustls noise uninit wire outcomes).1.unexpectedEof ↔
        ∃ read ∈ r.socketReads rustls noise uninit wire outcomes, read.Breaks) := by
  induction outcomes generalizing r wire with
  | nil =>
    have first := @readBuffers_buffered rustls noise uninit sent wire r h
    unfold Reading.readMore Reading.socketReads
    cases left : r.readBuffers rustls noise uninit wire with
    | answered poll r' wire' =>
      rw [left] at first
      exact ⟨List.forall_mem_nil _, iff_of_false first.2 (by simp)⟩
    | more r' wire' =>
      rw [left] at first
      refine ⟨List.forall_mem_singleton.mpr first, iff_of_false (Poll.not_unexpectedEof (by simp)) ?_⟩
      rintro ⟨read, member, breaks⟩
      cases List.mem_singleton.mp member
      exact absurd breaks (SocketRead.not_breaks rfl (by simp))
  | cons outcome outcomes ih =>
    have first := @readBuffers_buffered rustls noise uninit sent wire r h
    unfold Reading.readMore Reading.socketReads
    cases left : r.readBuffers rustls noise uninit wire with
    | answered poll r' wire' =>
      rw [left] at first
      exact ⟨List.forall_mem_nil _, iff_of_false first.2 (by simp)⟩
    | more r' wire' =>
      rw [left] at first
      have second := readSocket_buffered first.buffered outcome
      dsimp only
      cases next : r'.readSocket wire' outcome with
      | answered poll r'' wire'' =>
        rw [next] at second
        refine ⟨List.forall_mem_singleton.mpr first, second.2.trans ?_⟩
        constructor
        · exact fun breaks => ⟨_, List.mem_cons_self, breaks⟩
        · rintro ⟨read, member, breaks⟩
          cases List.mem_singleton.mp member
          exact breaks
      | more r'' wire'' =>
        rw [next] at second
        obtain ⟨reads, broken⟩ := ih second.1
        refine ⟨List.forall_mem_cons.mpr ⟨first, reads⟩, broken.trans ?_⟩
        constructor
        · rintro ⟨read, member, breaks⟩
          exact ⟨read, List.mem_cons_of_mem _ member, breaks⟩
        · rintro ⟨read, member, breaks⟩
          rcases List.mem_cons.mp member with rfl | later
          · exact absurd breaks second.2
          · exact ⟨read, later, breaks⟩

theorem readMore_buffered {r' : Reading} {poll : Poll Unit} {left : Bytes} {outcomes : List ReadOutcome}
    (h : Buffered sent wire r.stream.pendingRead)
    (ran : r.readMore rustls noise uninit wire outcomes = (poll, r', left)) :
    Buffered sent left r'.stream.pendingRead := by
  refine @Reading.readMore_rule rustls noise uninit (fun r wire => Buffered sent wire r.stream.pendingRead)
    (fun r wire => AtSocket sent wire r.stream.pendingRead)
    (fun _ r left => Buffered sent left r.stream.pendingRead) ?_ ?_ ?_ r r' wire left poll outcomes h ran
  · intro r wire kept
    have first := @readBuffers_buffered rustls noise uninit sent wire r kept
    cases buffers : r.readBuffers rustls noise uninit wire with
    | answered poll r' left =>
      rw [buffers] at first
      exact first.1
    | more r' left => rwa [buffers] at first
  · intro r wire outcome atSocket
    have second := readSocket_buffered atSocket.buffered outcome
    cases socket : r.readSocket wire outcome with
    | answered poll r' left =>
      rw [socket] at second
      exact second.1
    | more r' left =>
      rw [socket] at second
      exact second.1
  · exact fun _ _ atSocket => atSocket.buffered

variable {s : SnowyStream}

theorem pollRead_reads (rustls : Rustls) (noise : Noise) (uninit : UInt8) (h : Buffered sent wire s.pendingRead)
    (remaining : Nat) (outcomes : List ReadOutcome) :
    (∀ read ∈ s.socketReads rustls noise uninit remaining wire outcomes,
        AtSocket sent read.wire read.stream.pendingRead) ∧
      ((s.pollRead rustls noise uninit remaining wire outcomes).1.unexpectedEof ↔
        ∃ read ∈ s.socketReads rustls noise uninit remaining wire outcomes, read.Breaks) := by
  unfold SnowyStream.pollRead SnowyStream.socketReads
  by_cases readable : s.state.readable = true
  · rw [if_pos readable, if_pos readable]
    exact @readMore_reads rustls noise uninit sent wire ⟨s, remaining, [], false⟩ h outcomes
  · rw [if_neg readable, if_neg readable]
    exact ⟨nofun, iff_of_false (Poll.not_unexpectedEof nofun) (by simp)⟩

theorem pollRead_buffered {s' : SnowyStream} {poll : Poll Unit} {out left : Bytes} {remaining : Nat}
    {outcomes : List ReadOutcome} (h : Buffered sent wire s.pendingRead)
    (ran : s.pollRead rustls noise uninit remaining wire outcomes = (poll, s', out, left)) :
    Buffered sent left s'.pendingRead := by
  rcases SnowyStream.pollRead_cases ran with ⟨-, r', rfl, -, more⟩ | ⟨-, rfl, -, rfl⟩
  · exact readMore_buffered h more
  · exact h

/-! ## Whole runs -/

def Inbound.Buffers (t : Inbound) : Prop := Buffered t.sent t.wire t.stream.pendingRead

theorem buffers_new : Inbound.new.Buffers := ⟨⟨[], nofun, rfl⟩, Nat.zero_le _⟩

theorem step_buffers (t : Inbound) (event : InboundEvent) (next : Inbound) (h : t.Buffers)
    (stepped : t.step rustls noise uninit event = some next) : next.Buffers := by
  cases event with
  | send bytes =>
    simp only [Inbound.step] at stepped
    split at stepped
    · cases stepped
    · cases stepped
      obtain ⟨⟨records, all, whole⟩, room⟩ := h
      refine ⟨⟨records, all, ?_⟩, room⟩
      simp only [← whole, List.append_assoc]
  | close =>
    cases stepped
    exact h
  | read remaining outcomes =>
    simp only [Inbound.step] at stepped
    split at stepped
    · cases stepped
      exact pollRead_buffered h rfl
    · cases stepped

theorem AtSocket.endsInside (h : AtSocket sent [] pending) : EndsInside IsRecord sent ↔ pending ≠ [] := by
  obtain ⟨records, all, whole⟩ := h.buffered.framed
  rw [List.append_nil] at whole
  rw [← whole]
  exact endsInside_iff isRecord_prefixFree all h.begun

/-- A read that gets nothing was told that the stream has ended: there is room for a byte. -/
theorem AtSocket.got_nil {read : SocketRead} (h : AtSocket sent read.wire read.stream.pendingRead)
    (got : read.got = some []) : read.outcome = .eof := by
  unfold SocketRead.got at got
  split at got
  · assumption
  · split at got
    · cases got
    · next n _ some =>
      have room := h.room
      have nothing := List.take_eq_nil_iff.mp (Option.some.inj got)
      rcases nothing with zero | silent
      · omega
      · exact absurd silent some
  · cases got
  · cases got

/-- The buffer has room whenever the socket is read, and holds a part of one record; so that a read of no byte
is the end of the stream, and `UnexpectedEof` is reported if the stream ends inside a record, or if it is an
error of the socket itself. -/
theorem record_buffer_has_room (rustls : Rustls) (noise : Noise) (uninit : UInt8) (events : List InboundEvent)
    (t : Inbound) (ran : run (Inbound.step rustls noise uninit) .new events = some t) :
    t.stream.pendingRead.length ≤ maxWireSize ∧
    ∀ remaining outcomes next, t.step rustls noise uninit (.read remaining outcomes) = some next →
      (∀ read ∈ t.stream.socketReads rustls noise uninit remaining t.wire outcomes,
        read.stream.pendingRead.length < maxWireSize ∧ Begun IsRecord read.stream.pendingRead ∧
        (read.got = some [] → t.closed = true ∧ read.wire = [])) ∧
      ((t.stream.pollRead rustls noise uninit remaining t.wire outcomes).1.unexpectedEof ↔
        (EndsInside IsRecord t.sent ∧
          ∃ read ∈ t.stream.socketReads rustls noise uninit remaining t.wire outcomes, read.got = some []) ∨
        ∃ read ∈ t.stream.socketReads rustls noise uninit remaining t.wire outcomes,
          ∃ err, read.outcome = .failed err ∧ err.kind = .unexpectedEof) := by
  have buffers : t.Buffers := reachable_invariant step_buffers buffers_new ⟨events, ran⟩
  refine ⟨buffers.room, ?_⟩
  intro remaining outcomes next stepped
  obtain ⟨reads, broken⟩ := pollRead_reads rustls noise uninit buffers remaining outcomes
  have truthful : ∀ read ∈ t.stream.socketReads rustls noise uninit remaining t.wire outcomes,
      read.got = some [] → t.closed = true ∧ read.wire = [] := by
    intro read member got
    simp only [Inbound.step] at stepped
    split at stepped
    · next honest =>
      have told := List.all_eq_true.mp honest read member
      simpa [SocketRead.truthful, (reads read member).got_nil got] using told
    · cases stepped
  refine ⟨fun read member => ⟨(reads read member).room, (reads read member).begun, truthful read member⟩,
    broken.trans ?_⟩
  have inside (read : SocketRead) (member : read ∈ t.stream.socketReads rustls noise uninit remaining t.wire outcomes)
      (got : read.got = some []) : EndsInside IsRecord t.sent ↔ read.stream.pendingRead ≠ [] := by
    have atSocket := reads read member
    rw [(truthful read member got).2] at atSocket
    exact atSocket.endsInside
  constructor
  · rintro ⟨read, member, ⟨got, some⟩ | failed⟩
    · exact .inl ⟨(inside read member got).mpr some, read, member, got⟩
    · exact .inr ⟨read, member, failed⟩
  · rintro (⟨ends, read, member, got⟩ | ⟨read, member, failed⟩)
    · exact ⟨read, member, .inl ⟨got, (inside read member got).mp ends⟩⟩
    · exact ⟨read, member, .inr failed⟩

/-- Two bytes of a payload of five, and then the end. -/
theorem record_buffer_has_room_cut :
    ∃ t next, run (Inbound.step (.registered fun _ => none) plainNoise 0xaa) .new
        [.send [0x17, 0x03, 0x03, 0x00, 0x05, 0x01, 0x02], .close] = some t ∧
      t.step (.registered fun _ => none) plainNoise 0xaa (.read 9 [.arrived 99, .eof]) = some next ∧
      (t.stream.pollRead (.registered fun _ => none) plainNoise 0xaa 9 t.wire [.arrived 99, .eof]).1.unexpectedEof := by
  obtain ⟨t, given⟩ : ∃ t : Inbound, t = ⟨.new, [0x17, 0x03, 0x03, 0x00, 0x05, 0x01, 0x02],
    [0x17, 0x03, 0x03, 0x00, 0x05, 0x01, 0x02], true⟩ := ⟨_, rfl⟩
  have ran : run (Inbound.step (.registered fun _ => none) plainNoise 0xaa) .new
      [.send [0x17, 0x03, 0x03, 0x00, 0x05, 0x01, 0x02], .close] = some t := by
    rw [given]
    rfl
  have allowed : (t.step (.registered fun _ => none) plainNoise 0xaa (.read 9 [.arrived 99, .eof])).isSome = true := by
    rw [given]
    decide +kernel
  obtain ⟨next, stepped⟩ := Option.isSome_iff_exists.mp allowed
  obtain ⟨-, calls⟩ := record_buffer_has_room (.registered fun _ => none) plainNoise 0xaa _ t ran
  refine ⟨t, next, ran, stepped, (calls 9 [.arrived 99, .eof] next stepped).2.mpr (.inl ⟨?_, ?_⟩)⟩
  · have short : (Rustls.registered fun _ => none).read [0x17, 0x03, 0x03, 0x00, 0x05, 0x01, 0x02] =
        .error .tooShortForLength := by decide +kernel
    rw [given]
    exact ⟨[], [0x17, 0x03, 0x03, 0x00, 0x05, 0x01, 0x02], nofun, (read_short_begun (.inr short)).1, nofun, rfl⟩
  · rw [given]
    decide +kernel

end NoisyShuttle.Tunnel
