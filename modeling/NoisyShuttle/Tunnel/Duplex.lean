import NoisyShuttle.Tunnel.Shutdown

/-!
# Both directions of a tunnel

Two `SnowyStream`s that write, flush, shut down and read over one connection, in any order of calls. Each
direction keeps the invariant of a single link.
-/

namespace NoisyShuttle.Tunnel

inductive Side where
  | client
  | server
  deriving DecidableEq

def Side.other : Side → Side
  | .client => .server
  | .server => .client

/-- One end of the connection: `inbox` is on its way to it, `closed` tells that its socket was shut down. -/
structure Peer where
  stream : SnowyStream
  inbox : Bytes
  emitted : Bytes
  accepted : Bytes
  delivered : Bytes
  closed : Bool

def Peer.new : Peer := ⟨.new, [], [], [], [], false⟩

inductive StreamCall where
  | write (buf : Bytes) (outcomes : List WriteOutcome)
  | flush (outcomes : List WriteOutcome)
  | shutdown (outcomes : List WriteOutcome) (socket : Except IoError Unit)
  | read (remaining : Nat) (outcomes : List ReadOutcome)

def StreamCall.progressing : StreamCall → Bool
  | .write _ outcomes | .flush outcomes | .shutdown outcomes _ => outcomes.all WriteOutcome.progressing
  | .read _ _ => true

section System

variable (rustls : Rustls) (uninit : UInt8)

/-- A call of one end: the end after it, and what it hands to its socket. -/
def Peer.call (noise : Noise) (p : Peer) : StreamCall → Peer × Bytes
  | .write buf outcomes =>
    let (poll, stream, emitted) := p.stream.pollWrite noise buf outcomes
    ({ p with
      stream := stream, emitted := p.emitted ++ emitted, accepted := p.accepted ++ buf.take poll.accepted }, emitted)
  | .flush outcomes =>
    let (_, stream, emitted) := p.stream.pollFlush outcomes
    ({ p with stream := stream, emitted := p.emitted ++ emitted }, emitted)
  | .shutdown outcomes socket =>
    let (poll, stream, emitted) := p.stream.pollShutdown outcomes socket
    ({ p with stream := stream, emitted := p.emitted ++ emitted, closed := p.closed || poll.succeeded }, emitted)
  | .read remaining outcomes =>
    let (_, stream, out, inbox) := p.stream.pollRead rustls noise uninit remaining p.inbox outcomes
    ({ p with stream := stream, inbox := inbox, delivered := p.delivered ++ out }, [])

/-- The reads of the socket that a call makes. -/
def Peer.socketReads (noise : Noise) (p : Peer) : StreamCall → List SocketRead
  | .read remaining outcomes => p.stream.socketReads rustls noise uninit remaining p.inbox outcomes
  | _ => []

abbrev Duplex := Side → Peer

def Duplex.new : Duplex := fun _ => .new

/-- A call of the end on one side. Its socket tells the end of the stream only when the other end is shut
down and everything from there was read. -/
def Duplex.step (noise : Side → Noise) (s : Duplex) (event : Side × StreamCall) : Option Duplex :=
  let (side, call) := event
  if ((s side).socketReads rustls uninit (noise side) call).all (·.truthful (s side.other).closed) then
    let (after, emitted) := (s side).call rustls uninit (noise side) call
    some fun i => if i = side then after else { s i with inbox := (s i).inbox ++ emitted }
  else none

end System

/-! ## One call of one end -/

variable {rustls : Rustls} {noise a b : Noise} {uninit : UInt8}

/-- The end has promised to send no more, and has sent what it had. -/
def Peer.Quiet (p : Peer) : Prop := p.stream.unsent = [] ∧ p.stream.state.writeable = false

/-- What a call does: it seals `chunks`, it leaves the reader alone or is a read, and it closes the end only
once that is quiet. -/
structure Called (rustls : Rustls) (uninit : UInt8) (noise : Noise) (p after : Peer) (emitted : Bytes)
    (chunks : List Bytes) : Prop where
  sealed : Sealed noise p.stream after.stream emitted chunks
  emitted : after.emitted = p.emitted ++ emitted
  accepted : after.accepted = p.accepted ++ chunks.flatten
  reader : (SameReader p.stream after.stream ∧ after.inbox = p.inbox ∧ after.delivered = p.delivered) ∨
    ∃ remaining outcomes poll out, after.delivered = p.delivered ++ out ∧
      p.stream.pollRead rustls noise uninit remaining p.inbox outcomes = (poll, after.stream, out, after.inbox)
  unwriteable : p.stream.state.writeable = false → after.stream.state.writeable = false ∧ chunks = []
  stays : p.closed = true → after.closed = true
  closes : after.closed = true → p.closed = true ∨ after.Quiet

section

variable {p after : Peer} {emitted : Bytes} {call : StreamCall} {chunks : List Bytes}

theorem call_spec (matched : Matched noise b) (progressing : call.progressing = true)
    (h : p.call rustls uninit noise call = (after, emitted)) :
    ∃ chunks, Called rustls uninit noise p after emitted chunks := by
  cases call with
  | write buf outcomes =>
    cases wrote : p.stream.pollWrite noise buf outcomes with
    | mk poll rest =>
      obtain ⟨stream, out⟩ := rest
      simp only [Peer.call, wrote] at h
      cases h
      by_cases writeable : p.stream.state.writeable = true
      · obtain ⟨chunks, sealed, accepted⟩ := pollWrite_spec matched buf p.stream outcomes progressing wrote
        refine ⟨chunks, sealed, rfl, by rw [accepted], .inl ⟨pollWrite_reader wrote, rfl, rfl⟩, ?_, id, .inl⟩
        intro closed
        rw [writeable] at closed
        cases closed
      · -- a stream that is not writeable takes nothing
        have still : p.stream.pollWrite noise buf outcomes = (.ready (.ok 0), p.stream, []) := if_neg writeable
        cases wrote.symm.trans still
        refine ⟨[], (SameWriter.refl _).sealed, rfl, by simp [Poll.accepted], .inl ⟨.refl _, rfl, rfl⟩, ?_, id, .inl⟩
        exact fun closed => ⟨closed, rfl⟩
  | flush outcomes =>
    cases flushed : p.stream.pollFlush outcomes with
    | mk poll rest =>
      obtain ⟨stream, out⟩ := rest
      simp only [Peer.call, flushed] at h
      cases h
      obtain ⟨reader, state⟩ := pollFlush_reader flushed
      refine ⟨[], pollFlush_spec p.stream outcomes progressing flushed, rfl, by simp, .inl ⟨reader, rfl, rfl⟩, ?_,
        id, .inl⟩
      intro closed
      rw [← state] at closed
      exact ⟨closed, rfl⟩
  | shutdown outcomes socket =>
    cases shut : p.stream.pollShutdown outcomes socket with
    | mk poll rest =>
      obtain ⟨stream, out⟩ := rest
      simp only [Peer.call, shut] at h
      cases h
      obtain ⟨sealed, reader, writeable, flushed⟩ := pollShutdown_sealed (a := noise) progressing shut
      refine ⟨[], sealed, rfl, by simp, .inl ⟨reader, rfl, rfl⟩, fun _ => ⟨writeable, rfl⟩, ?_, ?_⟩
      · intro closed
        simp [closed]
      · intro closed
        rcases Bool.or_eq_true_iff.mp closed with before | now
        · exact .inl before
        · exact .inr ⟨flushed now, writeable⟩
  | read remaining outcomes =>
    cases read : p.stream.pollRead rustls noise uninit remaining p.inbox outcomes with
    | mk poll rest =>
      obtain ⟨stream, out, left⟩ := rest
      simp only [Peer.call, read] at h
      cases h
      have same := pollRead_writer read
      refine ⟨[], same.sealed, by simp, by simp, .inr ⟨remaining, outcomes, poll, out, rfl, read⟩, ?_, id, .inl⟩
      intro closed
      rw [← same.writeable] at closed
      exact ⟨closed, rfl⟩

theorem Called.received (called : Called rustls uninit noise p after emitted chunks) (matched : Matched a noise)
    {sent : List Bytes} (isChunk : ∀ c ∈ sent, IsChunk c) {unsent : Bytes}
    (received : Received a sent (p.inbox ++ unsent) p.delivered p.stream) :
    Received a sent (after.inbox ++ unsent) after.delivered after.stream := by
  rcases called.reader with ⟨same, inbox, delivered⟩ | ⟨remaining, outcomes, poll, out, delivered, read⟩
  · rw [inbox, delivered]
    exact same.received received
  · rw [delivered]
    exact pollRead_received matched isChunk received read

theorem Called.still (called : Called rustls uninit noise p after emitted chunks) (quiet : p.Quiet) :
    after.Quiet ∧ after.accepted = p.accepted ∧ after.emitted = p.emitted := by
  obtain ⟨writeable, rfl⟩ := called.unwriteable quiet.2
  have records := called.sealed.records
  rw [quiet.1] at records
  obtain ⟨nothing, unsent⟩ := List.append_eq_nil_iff.mp records
  refine ⟨⟨unsent, writeable⟩, ?_, ?_⟩
  · rw [called.accepted, List.flatten_nil, List.append_nil]
  · rw [called.emitted, nothing, List.append_nil]

end

/-! ## Whole runs -/

namespace Duplex

/-- One direction, as a link. -/
def lane (s : Duplex) (side : Side) : Link :=
  ⟨(s side).stream, (s side.other).stream, (s side.other).inbox, (s side).emitted, (s side).accepted,
    (s side.other).delivered⟩

structure Inv (noise : Side → Noise) (s : Duplex) : Prop where
  intact : ∀ side, ∃ sent, Intact (noise side) sent (s.lane side)
  quiet : ∀ side, (s side).closed = true → (s side).Quiet

theorem new_inv (noise : Side → Noise) : Inv noise new :=
  ⟨fun _ => ⟨[], intact_new⟩, fun _ closed => absurd closed (by simp [new, Peer.new])⟩

theorem step_cases {noise : Side → Noise} {s next : Duplex} {side : Side} {call : StreamCall}
    (h : s.step rustls uninit noise (side, call) = some next) :
    (∀ read ∈ (s side).socketReads rustls uninit (noise side) call, read.truthful (s side.other).closed = true) ∧
    ∃ after emitted, (s side).call rustls uninit (noise side) call = (after, emitted) ∧ next side = after ∧
      next side.other = { s side.other with inbox := (s side.other).inbox ++ emitted } := by
  unfold step at h
  dsimp only at h
  split at h
  · next honest =>
    cases h
    refine ⟨List.all_eq_true.mp honest, _, _, rfl, if_pos rfl, if_neg ?_⟩
    cases side <;> decide
  · cases h

theorem step_inv {noise : Side → Noise} (matched : ∀ side, Matched (noise side) (noise side.other)) {s next : Duplex}
    {event : Side × StreamCall} (inv : s.Inv noise) (progressing : event.2.progressing = true)
    (h : s.step rustls uninit noise event = some next) : next.Inv noise := by
  obtain ⟨side, call⟩ := event
  obtain ⟨-, after, emitted, called, here, there⟩ := step_cases h
  obtain ⟨chunks, spec⟩ := call_spec (matched side) progressing called
  have twice : side.other.other = side := by cases side <;> rfl
  -- the direction that starts at this end, and the one that comes to it
  have away : ∃ sent, Intact (noise side) sent (next.lane side) := by
    obtain ⟨sent, intact⟩ := inv.intact side
    have extended := intact.sealed spec.sealed
    refine ⟨sent ++ chunks, ?_⟩
    unfold lane
    rw [here, there, spec.emitted, spec.accepted]
    exact extended
  have back : ∃ sent, Intact (noise side.other) sent (next.lane side.other) := by
    obtain ⟨sent, intact⟩ := inv.intact side.other
    have received := intact.received
    unfold lane at received
    rw [twice] at received
    have came := matched side.other
    rw [twice] at came
    have kept := spec.received came intact.isChunk received
    refine ⟨sent, intact.isChunk, ?_, ?_, ?_, ?_⟩ <;> unfold lane <;> rw [twice, here, there]
    · exact intact.nonce
    · exact intact.accepted
    · exact intact.records
    · exact kept
  have quiet (closed : after.closed = true) : after.Quiet := by
    rcases spec.closes closed with before | now
    · exact (spec.still (inv.quiet side before)).1
    · exact now
  constructor
  · intro i
    by_cases same : i = side
    · rw [same]
      exact away
    · have opposite : i = side.other := by cases i <;> cases side <;> simp_all [Side.other]
      rw [opposite]
      exact back
  · intro i closed
    by_cases same : i = side
    · rw [same, here] at closed ⊢
      exact quiet closed
    · have opposite : i = side.other := by cases i <;> cases side <;> simp_all [Side.other]
      rw [opposite, there] at closed ⊢
      exact inv.quiet side.other closed

theorem step_final {noise : Side → Noise} (matched : ∀ side, Matched (noise side) (noise side.other)) {s next : Duplex}
    {event : Side × StreamCall} {side : Side} (inv : s.Inv noise)
    (progressing : event.2.progressing = true) (h : s.step rustls uninit noise event = some next)
    (closed : (s side).closed = true) :
    (next side).closed = true ∧ (next side).accepted = (s side).accepted ∧ (next side).emitted = (s side).emitted := by
  obtain ⟨caller, call⟩ := event
  obtain ⟨-, after, emitted, called, here, there⟩ := step_cases h
  by_cases same : side = caller
  · subst same
    obtain ⟨chunks, spec⟩ := call_spec (matched side) progressing called
    rw [here]
    exact ⟨spec.stays closed, (spec.still (inv.quiet side closed)).2⟩
  · have opposite : side = caller.other := by cases side <;> cases caller <;> simp_all [Side.other]
    rw [opposite, there]
    exact ⟨opposite ▸ closed, rfl, rfl⟩

end Duplex

/-- In both directions what is delivered is what was accepted, in order and without a gap. An end that was
shut down has put all of it on the wire in whole records and adds nothing later. The other end reads
without an error that is not one of its socket, and is told the end of the stream only when it has
everything. -/
theorem duplex_integrity (rustls : Rustls) (uninit : UInt8) (noise : Side → Noise)
    (matched : ∀ side, Matched (noise side) (noise side.other)) (events : List (Side × StreamCall))
    (progressing : ∀ event ∈ events, event.2.progressing = true) (s : Duplex)
    (h : run (Duplex.step rustls uninit noise) .new events = some s) (side : Side) :
    (s side.other).delivered <+: (s side).accepted ∧
    ((s side).closed = true → CompleteRecords (s side).emitted ∧
      ∀ later final, (∀ event ∈ later, event.2.progressing = true) →
        run (Duplex.step rustls uninit noise) s later = some final →
        (final side).accepted = (s side).accepted ∧ (final side).emitted = (s side).emitted) ∧
    ∀ remaining outcomes next poll stream out left, (s side.other).stream.state.readable = true →
      s.step rustls uninit noise (side.other, .read remaining outcomes) = some next →
      (s side.other).stream.pollRead rustls (noise side.other) uninit remaining (s side.other).inbox outcomes =
        (poll, stream, out, left) →
      poll ≠ .panicked ∧
      (∀ err, poll = .ready (.error err) →
        ∃ read ∈ (s side.other).socketReads rustls uninit (noise side.other) (.read remaining outcomes),
          read.outcome = .failed err) ∧
      (poll = .ready (.ok ()) → out = [] → 0 < remaining →
        (s side).closed = true ∧ (s side.other).delivered = (s side).accepted) := by
  have kept (s : Duplex) (event : Side × StreamCall) (next : Duplex) (inv : s.Inv noise)
      (ok : event.2.progressing = true) (stepped : s.step rustls uninit noise event = some next) : next.Inv noise :=
    Duplex.step_inv matched inv ok stepped
  have inv : s.Inv noise := guarded_invariant kept (Duplex.new_inv noise) (guarded_of_forall progressing _) h
  obtain ⟨sent, intact⟩ := inv.intact side
  have accepted : (s side).accepted = sent.flatten := intact.accepted
  refine ⟨?_, ?_, ?_⟩
  · rw [accepted]
    exact intact.received.delivered_prefix
  · intro closed
    constructor
    · have records := intact.records
      dsimp only [Duplex.lane] at records
      rw [(inv.quiet side closed).1, List.append_nil] at records
      rw [records]
      exact completeRecords_recordsOf (matched side) intact.isChunk 0
    · intro later final progressing ran
      have still (mid : Duplex) (event : Side × StreamCall) (next : Duplex)
          (same : mid.Inv noise ∧ (mid side).closed = true ∧ (mid side).accepted = (s side).accepted ∧
            (mid side).emitted = (s side).emitted) (ok : event.2.progressing = true)
          (stepped : mid.step rustls uninit noise event = some next) :
          next.Inv noise ∧ (next side).closed = true ∧ (next side).accepted = (s side).accepted ∧
            (next side).emitted = (s side).emitted := by
        obtain ⟨inv, closed, accepted, emitted⟩ := same
        obtain ⟨stays, more, out⟩ := Duplex.step_final matched inv ok stepped closed
        exact ⟨kept mid event next inv ok stepped, stays, more.trans accepted, out.trans emitted⟩
      exact (guarded_invariant still ⟨inv, closed, rfl, rfl⟩ (guarded_of_forall progressing _) ran).2.2
  · intro remaining outcomes next poll stream out left readable stepped ran
    have honest := (Duplex.step_cases stepped).1
    have twice : side.other.other = side := by cases side <;> rfl
    rw [twice] at honest
    have received := intact.received
    obtain ⟨runs, failed, ended⟩ := pollRead_ends (matched side) intact.isChunk
      (fun closed => (inv.quiet side closed).1) received readable honest ran
    refine ⟨runs, failed, fun okay silent positive => ?_⟩
    obtain ⟨closed, drained, pending, buffered⟩ := ended okay silent positive
    refine ⟨closed, ?_⟩
    have last := pollRead_received (matched side) intact.isChunk received ran
    dsimp only [Duplex.lane] at last
    rw [(inv.quiet side closed).1, drained, silent, List.append_nil, List.append_nil] at last
    rw [accepted]
    exact last.complete pending buffered

/-- The client shuts down in the middle of a record, and the server answers before it has read all of it. -/
def halfClosed : List (Side × StreamCall) :=
  [(.client, .write [1, 2, 3] [.wrote 4, .pending]), (.client, .shutdown [.pending] (.ok ())),
   (.server, .read 2 [.arrived 9]), (.client, .shutdown [.wrote 30] (.ok ())), (.server, .write [9] [.wrote 100]),
   (.server, .read 2 [.arrived 100]), (.server, .read 2 []), (.client, .read 8 [.arrived 100])]

theorem duplex_integrity_half_closed :
    ∃ s next, run (Duplex.step (.registered fun _ => none) 0 fun _ => plainNoise) .new halfClosed = some s ∧
      s.step (.registered fun _ => none) 0 (fun _ => plainNoise) (.server, .read 2 [.eof]) = some next ∧
      (s .client).accepted = [1, 2, 3] ∧ (s .server).delivered = (s .client).accepted ∧
      (s .client).delivered = [9] := by
  have evaluated : (run (Duplex.step (.registered fun _ => none) 0 fun _ => plainNoise) .new halfClosed).map
      (fun s => (((s .client).accepted, (s .client).delivered, (s .server).stream.state.readable),
        (s.step (.registered fun _ => none) 0 (fun _ => plainNoise) (.server, .read 2 [.eof])).isSome,
        ((s .server).stream.pollRead (.registered fun _ => none) plainNoise 0 2 (s .server).inbox [.eof]).1.succeeded,
        ((s .server).stream.pollRead (.registered fun _ => none) plainNoise 0 2 (s .server).inbox [.eof]).2.2.1)) =
      some (([1, 2, 3], [9], true), true, true, []) := by decide +kernel
  obtain ⟨s, ran, facts⟩ := Option.map_eq_some_iff.mp evaluated
  simp only [Prod.mk.injEq] at facts
  obtain ⟨⟨accepted, answered, readable⟩, steps, succeeded, silent⟩ := facts
  obtain ⟨next, stepped⟩ := Option.isSome_iff_exists.mp steps
  have integrity := duplex_integrity (.registered fun _ => none) 0 (fun _ => plainNoise)
    (fun _ => matched_plainNoise) halfClosed (by decide) s ran .client
  obtain ⟨-, -, ended⟩ := integrity.2.2 2 [.eof] next _ _ _ _ readable stepped rfl
  refine ⟨s, next, ran, stepped, accepted, (ended ?_ silent (by decide)).2, answered⟩
  exact Poll.eq_of_succeeded succeeded

end NoisyShuttle.Tunnel
