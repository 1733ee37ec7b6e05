import NoisyShuttle.Shuttle.Delivery

/-!
# When the one-shot tunnel comes to rest

Without failures, and if the socket of the client takes the first packet whole, the ends cannot go on forever
without the peers, and they stop only when everything the peers wrote is delivered. The first packet is written
without a flush: what its socket does not take stays behind until the application writes again or finishes.
-/

namespace NoisyShuttle.Shuttle
open Relation (ReflTransGen TransGen)
open Tunnel (earlyEof maximumPlaintextLength)

/-! ## Headers that are too short -/

namespace Addr

theorem readPort_short (build : UInt16 → Addr) {bytes : Bytes} (short : bytes.length < 2) :
    readPort build bytes = (.error earlyEof, []) := by
  rcases bytes with _ | ⟨hi, _ | ⟨lo, rest⟩⟩
  · rfl
  · rfl
  · simp only [List.length_cons] at short
    omega

theorem readV4_short {bytes : Bytes} (short : bytes.length < 6) : readV4 bytes = (.error earlyEof, []) := by
  rcases bytes with _ | ⟨b₃, _ | ⟨b₂, _ | ⟨b₁, _ | ⟨b₀, rest⟩⟩⟩⟩
  · rfl
  · rfl
  · rfl
  · rfl
  · simp only [List.length_cons] at short
    exact readPort_short _ (by omega)

theorem readExact_short {n : Nat} {bytes : Bytes} (short : bytes.length < n) : readExact n bytes = none :=
  if_neg (Nat.not_le.mpr short)

theorem readExact_long {n : Nat} {bytes : Bytes} (long : n ≤ bytes.length) :
    readExact n bytes = some (bytes.take n, bytes.drop n) :=
  if_pos long

theorem readV6_short {bytes : Bytes} (short : bytes.length < 18) : readV6 bytes = (.error earlyEof, []) := by
  unfold readV6
  by_cases high : bytes.length < 8
  · rw [readExact_short high]
  · rw [readExact_long (Nat.not_lt.mp high)]
    dsimp only
    by_cases low : (bytes.drop 8).length < 8
    · rw [readExact_short low]
    · rw [readExact_long (Nat.not_lt.mp low)]
      apply readPort_short
      rw [List.length_drop, List.length_drop]
      omega

theorem readDomain_short {host bytes : Bytes} {port : UInt16} (small : host.length ≤ 255) (valid : utf8 host = true)
    (part : bytes <+: UInt8.ofNat host.length :: (host ++ be16 port.toNat)) (short : bytes.length < host.length + 3) :
    readDomain bytes = (.error earlyEof, []) := by
  cases bytes with
  | nil => rfl
  | cons len stream =>
    obtain ⟨first, later⟩ := List.cons_prefix_cons.mp part
    subst first
    rw [List.length_cons] at short
    unfold readDomain
    dsimp only
    rw [toNat_lengthByte small]
    by_cases cut : stream.length < host.length
    · rw [readExact_short cut]
    · obtain ⟨rest, rfl⟩ := List.prefix_of_prefix_length_le (List.prefix_append host _) later (Nat.not_lt.mp cut)
      rw [readExact_append]
      dsimp only
      rw [dif_pos ⟨small, valid⟩]
      apply readPort_short
      rw [List.length_append] at short
      omega

theorem read_short {addr : Addr} {bytes : Bytes} (part : bytes <+: addr.write)
    (short : bytes.length < addr.write.length) :
    read bytes = (.error earlyEof, []) := by
  cases bytes with
  | nil => rfl
  | cons atyp stream =>
    rw [List.length_cons] at short
    unfold read
    cases addr with
    | v4 ip port =>
      obtain ⟨rfl, -⟩ := List.cons_prefix_cons.mp part
      exact readV4_short (Nat.lt_of_succ_lt_succ short)
    | v6 high low port =>
      obtain ⟨rfl, -⟩ := List.cons_prefix_cons.mp part
      exact readV6_short (Nat.lt_of_succ_lt_succ short)
    | domain host port small valid =>
      obtain ⟨rfl, later⟩ := List.cons_prefix_cons.mp part
      refine readDomain_short small valid later ?_
      simp only [write, List.length_cons, List.length_append, be16_length] at short
      omega

end Addr

/-- A part of an address is the early end of a stream. -/
def Socks5.EndsEarly {α : Type} (socks : Socks5 α) : Prop :=
  ∀ (addr : α) (bytes : Bytes), bytes <+: socks.write addr → bytes.length < (socks.write addr).length →
    ∃ err, err.kind = .unexpectedEof ∧ socks.read bytes = (.error err, [])

theorem Addr.socks5_endsEarly : Addr.socks5.EndsEarly :=
  fun _ _ part short => ⟨earlyEof, rfl, Addr.read_short part short⟩

section

variable {socks : Socks5Sync Addr} (early : socks.EndsEarly) {req : TrojanLikeRequest Addr} {bytes rest : Bytes}
include early

theorem request_short (part : bytes <+: req.encoded socks.toSocks5)
    (short : bytes.length < (req.encoded socks.toSocks5).length) : AwaitsMore socks bytes := by
  cases bytes with
  | nil => exact ⟨unexpectedEnd, rfl, rfl⟩
  | cons t stream =>
    obtain ⟨first, later⟩ := List.cons_prefix_cons.mp part
    subst first
    simp only [TrojanLikeRequest.encoded, List.length_cons, List.length_append, List.length_nil] at short
    unfold AwaitsMore readTrojanLikeRequest
    dsimp only
    rw [Cmd.fromU8_toU8]
    dsimp only
    by_cases cut : stream.length < (socks.write req.destAddr).length
    · have first := List.prefix_of_prefix_length_le later (List.prefix_append _ _) (Nat.le_of_lt cut)
      obtain ⟨err, kind, none⟩ := early req.destAddr stream first cut
      rw [none]
      exact ⟨err, kind, rfl⟩
    · obtain ⟨tail, rfl⟩ := List.prefix_of_prefix_length_le (List.prefix_append _ _) later (Nat.not_lt.mp cut)
      rw [socks.read_write]
      rw [List.length_append] at short
      rcases tail with _ | ⟨hi, _ | ⟨lo, rest⟩⟩
      · exact ⟨unexpectedEnd, rfl, rfl⟩
      · exact ⟨unexpectedEnd, rfl, rfl⟩
      · simp only [List.length_cons] at short
        omega

/-- As far as it has come, a request is too short or right. -/
theorem request_part (part : bytes <+: req.encoded socks.toSocks5 ++ rest) :
    AwaitsMore socks bytes ∨ (readTrojanLikeRequest socks.toSocks5 bytes).1 = .ok req := by
  by_cases short : bytes.length < (req.encoded socks.toSocks5).length
  · have first := List.prefix_of_prefix_length_le part (List.prefix_append _ _) (Nat.le_of_lt short)
    exact Or.inl (request_short early first short)
  · obtain ⟨more, rfl⟩ := List.prefix_of_prefix_length_le (List.prefix_append _ _) part (Nat.not_lt.mp short)
    rw [readTrojanLikeRequest_encoded]
    exact Or.inr rfl

end

/-! ## One direction at rest -/

namespace Way

variable {sizes : Sizes} {w next : Way} {event : WayEvent} {finished : Prop} {eaten : Bytes}

def Quiet (sizes : Sizes) (actor : Actor) (w : Way) : Prop :=
  ∀ event : WayEvent, event.internal = true → event.actor = actor → w.step sizes event = none

/-- What the tunnel has taken it will be asked to flush, and it is shut down with its socket. -/
structure Flushes (finished : Prop) (w : Way) : Prop where
  flush : w.staged.queue ≠ [] → w.needFlush = true
  shut : w.staged.ended = true → w.wire.ended = true
  source : finished → w.source.ended = true

theorem Stepped.flushes (h : Stepped sizes w event next) (flushes : w.Flushes finished) :
    next.Flushes (finished ∨ event = .finish) := by
  have before : ∀ {other : WayEvent}, other ≠ .finish → finished ∨ other = .finish → w.source.ended = true := by
    rintro other different (before | same)
    · exact flushes.source before
    · exact absurd same different
  cases h with
  | write => exact ⟨flushes.flush, flushes.shut, before (by simp)⟩
  | finish => exact ⟨flushes.flush, flushes.shut, fun _ => rfl⟩
  | read out =>
    refine ⟨flushes.flush, flushes.shut, ?_⟩
    intro over_
    rw [(Cell.pull_length out).1]
    exact before (by simp) over_
  | send _ stagedEnded wireEnded =>
    refine ⟨fun _ => rfl, ?_, before (by simp)⟩
    intro ended
    rw [wireEnded]
    exact flushes.shut (stagedEnded.symm.trans ended)
  | @emit _ staged _ some_ stagedEnded wireEnded =>
    refine ⟨?_, ?_, before (by simp)⟩
    · intro more
      have isEmpty : staged.queue.isEmpty = false := by simpa using more
      simp only [flushes.flush some_, isEmpty, Bool.false_and, Bool.not_false, Bool.true_and]
    · intro ended
      rw [wireEnded]
      exact flushes.shut (stagedEnded.symm.trans ended)
  | shut first second =>
    refine ⟨?_, fun _ => (Cell.pass_queue second).1, before (by simp)⟩
    intro more
    rw [(Cell.pass_queue first).2] at more
    exact flushes.flush more
  | fetch out =>
    refine ⟨flushes.flush, ?_, before (by simp)⟩
    intro ended
    rw [(Cell.pull_length out).1]
    exact flushes.shut ended
  | _ => exact ⟨flushes.flush, flushes.shut, before (by simp)⟩

theorem Quiet.take (quiet : w.Quiet sizes .peer) (runs : w.got.ended = false) : w.sink.queue = [] :=
  Cell.queue_nil_of_pull runs (Option.map_eq_none_iff.mp (quiet (.take 1) rfl rfl))

theorem Quiet.takeEnd (quiet : w.Quiet sizes .peer) (void : w.sink.queue = []) (ended : w.sink.ended = true) :
    w.got.ended = true :=
  Cell.ended_of_pass ended void (Option.map_eq_none_iff.mp (quiet .takeEnd rfl rfl))

theorem Quiet.forward (quiet : w.Quiet sizes .far) (room : w.sink.queue.length + 1 ≤ sizes.sink)
    (runs : w.sink.ended = false) : w.farHeld.queue = [] := by
  have stuck := quiet (.forward 1) rfl rfl
  simp only [step] at stuck
  rw [if_pos room] at stuck
  exact Cell.queue_nil_of_pull runs (Option.map_eq_none_iff.mp stuck)

theorem Quiet.close (quiet : w.Quiet sizes .far) (void : w.farHeld.queue = []) (ended : w.farHeld.ended = true) :
    w.sink.ended = true :=
  Cell.ended_of_pass ended void (Option.map_eq_none_iff.mp (quiet .close rfl rfl))

theorem filled_room {buffer : Cell UInt8} (void : buffer.queue = []) (cap : Nat) :
    filled buffer cap + 1 ≤ copyBufferSize := by
  unfold filled
  rw [if_pos void]
  decide

theorem Quiet.fetch (quiet : w.Quiet sizes .far) (void : w.farHeld.queue = []) (runs : w.farHeld.ended = false) :
    w.wire.queue = [] := by
  have stuck := quiet (.fetch 1) rfl rfl
  simp only [step] at stuck
  rw [if_pos (filled_room void _)] at stuck
  exact Cell.queue_nil_of_pull runs (Option.map_eq_none_iff.mp stuck)

theorem Quiet.fetchEnd (quiet : w.Quiet sizes .far) (void : w.wire.queue = []) (ended : w.wire.ended = true) :
    w.farHeld.ended = true :=
  Cell.ended_of_pass ended void (Option.map_eq_none_iff.mp (quiet .fetchEnd rfl rfl))

theorem Quiet.read (quiet : w.Quiet sizes .near) (void : w.held.queue = []) (runs : w.held.ended = false) :
    w.source.queue = [] := by
  have stuck := quiet (.read 1) rfl rfl
  simp only [step] at stuck
  rw [if_pos (filled_room void _)] at stuck
  exact Cell.queue_nil_of_pull runs (Option.map_eq_none_iff.mp stuck)

theorem Quiet.readEnd (quiet : w.Quiet sizes .near) (void : w.source.queue = []) (ended : w.source.ended = true) :
    w.held.ended = true :=
  Cell.ended_of_pass ended void (Option.map_eq_none_iff.mp (quiet .readEnd rfl rfl))

theorem Quiet.emit (quiet : w.Quiet sizes .near) (flushing : w.flushing = true)
    (room : w.wire.queue.length + 1 ≤ sizes.wire) (runs : w.wire.ended = false) : w.staged.queue = [] := by
  have stuck := quiet (.emit 1) rfl rfl
  simp only [step, Way.emit] at stuck
  rw [if_pos flushing, if_pos room] at stuck
  exact Cell.queue_nil_of_pull runs (Option.map_eq_none_iff.mp (Option.map_eq_none_iff.mp stuck))

/-- A tunnel that has passed on all it took can take more. -/
theorem send_some (more : w.held.queue ≠ []) (void : w.staged.queue = []) (taking : w.staged.ended = false)
    (runs : w.wire.ended = false) : w.send sizes w.batch ≠ none := by
  have some_ : 0 < w.held.queue.length := List.length_pos_iff.mpr more
  have positive : 0 < w.batch := Nat.lt_min.mpr ⟨some_, by decide⟩
  have fits : w.batch ≤ w.held.queue.length := Nat.min_le_left _ _
  have taken := Cell.pull_eq_some.mpr ⟨⟨positive, fits, taking⟩, rfl, rfl⟩
  unfold send
  rw [if_pos ⟨void, fun less => absurd less (Nat.lt_irrefl _)⟩, taken, Option.bind_some, if_neg (Nat.ne_of_gt positive)]
  rw [Cell.pull_eq_some.mpr ⟨⟨positive, ?_, runs⟩, rfl, rfl⟩]
  · rw [Option.map_some]
    exact Option.some_ne_none _
  · rw [void, List.nil_append, List.length_take, Nat.min_eq_left fits]

theorem Quiet.send (quiet : w.Quiet sizes .near) (void : w.staged.queue = []) (taking : w.staged.ended = false)
    (runs : w.wire.ended = false) : w.held.queue = [] := by
  by_contra more
  exact send_some more void taking runs (Option.map_eq_none_iff.mp (quiet (.send w.batch) rfl rfl))

theorem Quiet.shut (quiet : w.Quiet sizes .near) (void : w.held.queue = []) (flushed : w.staged.queue = [])
    (ended : w.held.ended = true) (taking : w.staged.ended = false) : w.wire.ended = true := by
  have stuck := quiet .shut rfl rfl
  have first : w.held.pass w.staged = some { w.staged with ended := true } :=
    Cell.pass_eq_some.mpr ⟨⟨ended, void, taking⟩, rfl⟩
  simp only [step] at stuck
  rw [first, Option.bind_some] at stuck
  have second : Cell.pass ⟨w.staged.queue, true⟩ w.wire = none := Option.map_eq_none_iff.mp stuck
  exact Cell.ended_of_pass (a := ⟨w.staged.queue, true⟩) rfl flushed second

/-- Once the far end is at rest there is nothing on its side, and the end has gone on to the peer. -/
theorem far_settled (far : w.sink.ended = false → w.Quiet sizes .far) (peer : w.Quiet sizes .peer)
    (room : 0 < sizes.sink) (ordered : Line.Ordered (w.line eaten)) :
    w.wire.queue = [] ∧ w.farHeld.queue = [] ∧ w.sink.queue = [] ∧ (w.wire.ended = true → w.got.ended = true) := by
  have noSink : w.sink.queue = [] := by
    cases ended : w.got.ended with
    | true =>
      have before := Line.Ordered.before [w.source, w.held, w.staged, w.wire, w.farHeld, w.sink] ordered ended
      exact (before w.sink (by simp)).2
    | false => exact peer.take ended
  cases ended : w.sink.ended with
  | true =>
    have before := Line.Ordered.before [w.source, w.held, w.staged, w.wire, w.farHeld] ordered ended
    exact ⟨(before w.wire (by simp)).2, (before w.farHeld (by simp)).2, noSink, fun _ => peer.takeEnd noSink ended⟩
  | false =>
    have quiet := far ended
    have noHeld : w.farHeld.queue = [] := quiet.forward (by rw [noSink]; exact room) ended
    have runs : w.farHeld.ended = false := by
      by_contra over_
      have closed := quiet.close noHeld (Bool.not_eq_false _ ▸ over_)
      rw [ended] at closed
      cases closed
    have noWire : w.wire.queue = [] := quiet.fetch noHeld runs
    refine ⟨noWire, noHeld, noSink, ?_⟩
    intro over_
    have fetched := quiet.fetchEnd noWire over_
    rw [runs] at fetched
    cases fetched

/-- Once the near end is at rest and what it sent was read, there is nothing left on its side. -/
theorem near_settled (near : w.wire.ended = false → w.Quiet sizes .near) (room : 0 < sizes.wire)
    (noWire : w.wire.queue = []) (flushes : w.Flushes finished) (ordered : Line.Ordered (w.line eaten)) :
    w.source.queue = [] ∧ w.held.queue = [] ∧ w.staged.queue = [] ∧
      (w.source.ended = true → w.wire.ended = true) := by
  cases ended : w.wire.ended with
  | true =>
    have before := Line.Ordered.before [w.source, w.held, w.staged] ordered ended
    exact ⟨(before w.source (by simp)).2, (before w.held (by simp)).2, (before w.staged (by simp)).2, fun _ => rfl⟩
  | false =>
    have quiet := near ended
    have space : w.wire.queue.length + 1 ≤ sizes.wire := by
      rw [noWire]
      exact room
    have taking : w.staged.ended = false := by
      by_contra over_
      have shut := flushes.shut (Bool.not_eq_false _ ▸ over_)
      rw [ended] at shut
      cases shut
    have noHeld : w.held.queue = [] := by
      by_contra more
      have flushing : w.flushing = true := by
        have isEmpty : w.held.queue.isEmpty = false := by simpa using more
        simp only [Way.flushing, isEmpty, Bool.not_false, Bool.true_or]
      exact more (quiet.send (quiet.emit flushing space ended) taking ended)
    have reading : w.held.ended = false := by
      by_contra over_
      have finished : w.held.ended = true := Bool.not_eq_false _ ▸ over_
      have flushing : w.flushing = true := by
        simp only [Way.flushing, finished, Bool.or_true, Bool.true_or]
      have shut := quiet.shut noHeld (quiet.emit flushing space ended) finished taking
      rw [ended] at shut
      cases shut
    have noSource : w.source.queue = [] := quiet.read noHeld reading
    have open_ : w.source.ended = false := by
      by_contra over_
      have passed := quiet.readEnd noSource (Bool.not_eq_false _ ▸ over_)
      rw [reading] at passed
      cases passed
    refine ⟨noSource, noHeld, ?_, ?_⟩
    · by_contra more
      have flushing : w.flushing = true := by
        simp only [Way.flushing, flushes.flush more, noSource, open_, List.isEmpty_nil, Bool.not_false, Bool.and_true,
          Bool.or_true]
      exact more (quiet.emit flushing space ended)
    · intro over_
      rw [open_] at over_
      cases over_

/-- Once both ends and the reading peer are at rest, the peer has got everything. -/
theorem settled {total : Bytes} {alive ended : Prop} (flow : w.Flow eaten total alive ended) (live : alive)
    (flushes : w.Flushes finished) (near : w.wire.ended = false → w.Quiet sizes .near)
    (far : w.sink.ended = false → w.Quiet sizes .far) (peer : w.Quiet sizes .peer) (wire : 0 < sizes.wire)
    (sink : 0 < sizes.sink) :
    eaten ++ w.got.queue = total ∧
      (finished → w.wire.ended = true ∧ w.sink.ended = true ∧ w.got.ended = true) := by
  have ordered := flow.ordered live
  obtain ⟨noWire, noFarHeld, noSink, passed⟩ := far_settled far peer sink ordered
  obtain ⟨noSource, noHeld, noStaged, shut⟩ := near_settled near wire noWire flushes ordered
  refine ⟨?_, ?_⟩
  · rw [← flow.whole live]
    simp only [line, Line.contents, noSource, noHeld, noStaged, noWire, noFarHeld, noSink, Cell.after, List.append_nil,
      List.nil_append]
  · intro finish
    have out := shut (flushes.source finish)
    have got := passed out
    have before := Line.Ordered.before [w.source, w.held, w.staged, w.wire, w.farHeld, w.sink] ordered got
    exact ⟨out, (before w.sink (by simp)).1, got⟩

theorem Stepped.drained (h : Stepped sizes w event next) (other : event.actor ≠ .near) :
    next.wire.queue.length ≤ w.wire.queue.length := by
  cases h with
  | read | readEnd | send | emit | shut => exact absurd rfl other
  | fetch out =>
    obtain ⟨-, -, less, -⟩ := Cell.pull_length out
    exact Nat.le.intro less
  | _ => exact Nat.le_refl _

end Way

/-! ## The first packet -/

/-- The first packet is not yet written. -/
def ClientStage.begins : ClientStage → Bool
  | .opening | .sending _ => true
  | _ => false

namespace OneShot

variable {socks : Socks5Sync Addr} {upSizes downSizes : Sizes} {s next : OneShot} {event : OneShotEvent}
  {addr : Addr} {payload : Bytes}
  {past : List OneShotEvent}

/-- Both ends go on, and no part of the first packet stays behind in the tunnel. -/
structure Ready (upSizes : Sizes) (past : List OneShotEvent) (s : OneShot) : Prop where
  alive : s.Alive
  opening : s.client = .opening → s.up.wire.queue = [] ∧ s.up.held.queue.length ≤ maxFirstPacketSize
  first : s.client.begins = true →
    s.up.staged.queue = [] ∧ s.up.wire.queue.length + s.up.held.queue.length ≤ upSizes.wire
  up : s.up.Flushes (.up .finish ∈ past)
  down : s.down.Flushes (.down .finish ∈ past)

theorem begins_not_near {actor : Actor} (begins : s.client.begins = true) (may : s.mayUp actor = true) :
    actor ≠ .near := by
  rintro rfl
  change s.client.isCopying = true at may
  cases client : s.client with
  | copying initlen =>
    rw [client] at begins
    cases begins
  | _ =>
    rw [client] at may
    cases may

theorem mem_of_concat {e : OneShotEvent} (member : e ∈ past ++ [event]) (different : e ≠ event) : e ∈ past := by
  rcases List.mem_append.mp member with before | last
  · exact before
  · exact absurd (List.mem_singleton.mp last) different

theorem headerByte_ready (early : socks.EndsEarly) {rest : Bytes} {alive finished : Prop}
    (reading : s.server = .reading) (reads : s.Reads socks addr)
    (flow : s.up.Flow (s.eaten socks) (trojanHeader socks.toSocks5 addr ++ rest) alive finished)
    (h : s.headerByte socks = some next) :
    ∃ wire farHeld server, next = { s with up := { s.up with wire := wire, farHeld := farHeld }, server := server } ∧
      wire.ended = s.up.wire.ended ∧ wire.queue.length ≤ s.up.wire.queue.length ∧ server.isFailed = false := by
  obtain ⟨runs, noSink, noGot⟩ := reads.unused (by rw [reading]; rfl)
  obtain ⟨⟨wire, farHeld⟩, out, rfl⟩ := Option.map_eq_some_iff.mp h
  obtain ⟨ended, still, less, -⟩ := Cell.pull_length out
  rw [eaten_reading reading] at flow
  have part : farHeld.queue <+: TrojanLikeRequest.encoded socks.toSocks5 ⟨.connect, addr⟩ ++ rest :=
    flow.header out (still.trans runs) noSink noGot
  have shorter : wire.queue.length ≤ s.up.wire.queue.length := Nat.le.intro less
  dsimp only
  rcases request_part early part with ⟨err, kind, short⟩ | complete
  · rw [short]
    dsimp only
    rw [if_pos kind]
    exact ⟨_, _, _, rfl, ended, shorter, rfl⟩
  · rw [complete]
    exact ⟨_, _, _, rfl, ended, shorter, rfl⟩

theorem initialSend_ready {eager : Nat} {up : Way}
    (room : s.up.wire.queue.length + s.up.held.queue.length ≤ upSizes.wire)
    (out : s.up.send upSizes eager = some up) :
    ∃ held staged wire, up = { s.up with held := held, staged := staged, wire := wire } ∧
      staged.queue = [] ∧ staged.ended = s.up.staged.ended ∧ wire.ended = s.up.wire.ended ∧
      wire.queue.length + held.queue.length ≤ upSizes.wire := by
  obtain ⟨held, staged, wire, rfl, less, more, stagedEnded, wireEnded, through, -⟩ := Way.send_cases out
  have void : staged.queue = [] := by
    rcases through with void | ⟨full, behind⟩
    · exact void
    · omega
  refine ⟨held, staged, wire, rfl, void, stagedEnded, wireEnded, ?_⟩
  rw [void, List.length_nil] at more
  omega

theorem step_ready (early : socks.EndsEarly) (wide : maxFirstPacketSize ≤ upSizes.wire)
    (sound : s.Sound socks addr payload past)
    (ready : s.Ready upSizes past) (fine : event.fails = false) (h : s.step socks upSizes downSizes event = some next) :
    next.Ready upSizes (past ++ [event]) := by
  have up : event ≠ .up .finish → s.up.Flushes (.up .finish ∈ past ++ [event]) := fun different =>
    ⟨ready.up.flush, ready.up.shut, fun member => ready.up.source (mem_of_concat member different.symm)⟩
  have down : event ≠ .down .finish → s.down.Flushes (.down .finish ∈ past ++ [event]) := fun different =>
    ⟨ready.down.flush, ready.down.shut, fun member => ready.down.source (mem_of_concat member different.symm)⟩
  obtain ⟨client, server⟩ := ready.alive
  cases step_happens h with
  | @up event after may stepped =>
    have flushes := stepped.flushes ready.up
    refine ⟨⟨client, server⟩, ?_, ?_, ⟨flushes.flush, flushes.shut, ?_⟩, down (by simp)⟩
    · intro opening
      obtain ⟨noWire, fits⟩ := ready.opening opening
      have other := begins_not_near (s := s) (by rw [opening]; rfl) may
      have less := stepped.drained other
      refine ⟨?_, ?_⟩
      · rw [noWire] at less
        exact List.length_eq_zero_iff.mp (Nat.le_zero.mp less)
      · change after.held.queue.length ≤ _
        rw [(stepped.near other).1]
        exact fits
    · intro begins
      obtain ⟨noStaged, fits⟩ := ready.first begins
      have other := begins_not_near (s := s) begins may
      have less := stepped.drained other
      obtain ⟨held, staged, -⟩ := stepped.near other
      change after.staged.queue = [] ∧ after.wire.queue.length + after.held.queue.length ≤ _
      rw [held, staged]
      exact ⟨noStaged, by omega⟩
    · intro member
      refine flushes.source ?_
      rcases List.mem_append.mp member with before | last
      · exact Or.inl before
      · cases List.mem_singleton.mp last
        exact Or.inr rfl
  | @down event after may stepped =>
    have flushes := stepped.flushes ready.down
    refine ⟨⟨client, server⟩, ready.opening, ready.first, up (by simp), ⟨flushes.flush, flushes.shut, ?_⟩⟩
    intro member
    refine flushes.source ?_
    rcases List.mem_append.mp member with before | last
    · exact Or.inl before
    · cases List.mem_singleton.mp last
      exact Or.inr rfl
  | @firstRead n source held opening fits out =>
    obtain ⟨ended, -, less, more⟩ := Cell.pull_length out
    obtain ⟨noWire, -⟩ := ready.opening opening
    have flushes := up (by simp)
    refine ⟨⟨rfl, server⟩, fun later => (by cases later), ?_, ⟨flushes.flush, flushes.shut, ?_⟩, down (by simp)⟩
    · intro _
      refine ⟨(ready.first (by rw [opening]; rfl)).1, ?_⟩
      change s.up.wire.queue.length + held.queue.length ≤ _
      rw [noWire, List.length_nil, Nat.zero_add, more]
      exact fits.trans wide
    · intro member
      exact ended.trans (flushes.source member)
  | firstTimeout opening =>
    exact ⟨⟨rfl, server⟩, fun later => (by cases later), fun _ => ready.first (by rw [opening]; rfl), up (by simp),
      down (by simp)⟩
  | initialSend sending out =>
    have begins : s.client.begins = true := by
      rw [sending]
      rfl
    obtain ⟨held, staged, wire, rfl, void, stagedEnded, wireEnded, fits⟩ :=
      initialSend_ready (ready.first begins).2 out
    have flushes := up (by simp)
    refine ⟨⟨client, server⟩, ?_, fun _ => ⟨void, fits⟩, ⟨fun more => absurd void more, ?_, flushes.source⟩,
      down (by simp)⟩
    · intro opening
      cases sending.symm.trans opening
    · intro ended
      exact wireEnded.trans (flushes.shut (stagedEnded.symm.trans ended))
  | initialEmit sending out =>
    obtain ⟨-, -, -, some_, -⟩ := Way.emit_cases out
    exact absurd (ready.first (by rw [sending]; rfl)).1 some_
  | sent =>
    exact ⟨⟨rfl, server⟩, fun later => (by cases later), fun later => (by cases later), up (by simp), down (by simp)⟩
  | headerByte reading read =>
    have flow := sound.up
    rw [List.append_assoc] at flow
    obtain ⟨wire, farHeld, stage, rfl, ended, less, runs⟩ := headerByte_ready early reading sound.reads flow read
    have flushes := up (by simp)
    refine ⟨⟨client, runs⟩, ?_, ?_, ⟨flushes.flush, ?_, flushes.source⟩, down (by simp)⟩
    · intro opening
      obtain ⟨noWire, fits⟩ := ready.opening opening
      rw [noWire] at less
      exact ⟨List.length_eq_zero_iff.mp (Nat.le_zero.mp less), fits⟩
    · intro begins
      obtain ⟨noStaged, fits⟩ := ready.first begins
      exact ⟨noStaged, (Nat.add_le_add_right less _).trans fits⟩
    · intro shut
      exact ended.trans (flushes.shut shut)
  | connected => exact ⟨⟨client, rfl⟩, ready.opening, ready.first, up (by simp), down (by simp)⟩
  | clientReturns =>
    exact ⟨⟨rfl, server⟩, fun later => (by cases later), fun later => (by cases later), up (by simp), down (by simp)⟩
  | serverReturns => exact ⟨⟨client, rfl⟩, ready.opening, ready.first, up (by simp), down (by simp)⟩
  | clientFails => cases fine
  | serverFails => cases fine

theorem start_ready {direct : Bool} (room : (trojanHeader socks.toSocks5 addr ++ payload).length ≤ upSizes.wire)
    (fits : direct = false → (trojanHeader socks.toSocks5 addr ++ payload).length ≤ maxFirstPacketSize) :
    (start (trojanHeader socks.toSocks5 addr ++ payload) direct).Ready upSizes [] := by
  have flushes : ∀ items : Bytes, ∀ e : OneShotEvent, (Way.holding items).Flushes (e ∈ []) := by
    intro items e
    exact ⟨fun more => absurd rfl more, fun ended => (by cases ended), fun none => (by cases none)⟩
  have packet : (start (trojanHeader socks.toSocks5 addr ++ payload) direct).up.held.queue =
      trojanHeader socks.toSocks5 addr ++ payload := rfl
  refine ⟨⟨by cases direct <;> rfl, rfl⟩, ?_, ?_, flushes _ _, flushes _ _⟩
  · intro opening
    refine ⟨rfl, ?_⟩
    rw [packet]
    cases direct with
    | true => cases opening
    | false => exact fits rfl
  · intro _
    refine ⟨rfl, ?_⟩
    rw [packet]
    exact (Nat.zero_add _).trans_le room

theorem run_ready (early : socks.EndsEarly) {direct : Bool} {events : List OneShotEvent}
    (wide : maxFirstPacketSize ≤ upSizes.wire)
    (room : (trojanHeader socks.toSocks5 addr ++ payload).length ≤ upSizes.wire)
    (fits : direct = false → (trojanHeader socks.toSocks5 addr ++ payload).length ≤ maxFirstPacketSize)
    (fine : ∀ event ∈ events, event.fails = false)
    (h : run (step socks upSizes downSizes) (start (trojanHeader socks.toSocks5 addr ++ payload) direct) events =
      some s) :
    s.Sound socks addr payload events ∧ s.Ready upSizes events := by
  have kept : ∀ (past : List OneShotEvent) (s : OneShot) (event : OneShotEvent) (next : OneShot),
      ((∀ e ∈ past, e.fails = false) → s.Sound socks addr payload past ∧ s.Ready upSizes past) →
      s.step socks upSizes downSizes event = some next →
      (∀ e ∈ past ++ [event], e.fails = false) →
        next.Sound socks addr payload (past ++ [event]) ∧ next.Ready upSizes (past ++ [event]) := by
    intro past s event next before step fine
    obtain ⟨sound, ready⟩ := before fun e member => fine e (List.mem_append_left _ member)
    have last := fine event (List.mem_append_right _ List.mem_cons_self)
    exact ⟨step_sound past s event next sound step, step_ready early wide sound ready last step⟩
  have first : (∀ e ∈ ([] : List OneShotEvent), e.fails = false) →
      (start (trojanHeader socks.toSocks5 addr ++ payload) direct).Sound socks addr payload [] ∧
        (start (trojanHeader socks.toSocks5 addr ++ payload) direct).Ready upSizes [] :=
    fun _ => ⟨start_sound addr payload direct, start_ready room fits⟩
  exact history_invariant kept first h fine

/-! ## At rest -/

/-- The ends, the sockets and the readers of the peers cannot do anything. -/
def Quiet (socks : Socks5Sync Addr) (upSizes downSizes : Sizes) (s : OneShot) : Prop :=
  ∀ event : OneShotEvent, event.internal = true → s.step socks upSizes downSizes event = none

theorem Quiet.up {actor : Actor} (quiet : s.Quiet socks upSizes downSizes) (may : s.mayUp actor = true) :
    s.up.Quiet upSizes actor := by
  intro event internal same
  have stuck := quiet (.up event) internal
  simp only [step] at stuck
  rw [same, if_pos may] at stuck
  exact Option.map_eq_none_iff.mp stuck

theorem Quiet.down {actor : Actor} (quiet : s.Quiet socks upSizes downSizes) (may : s.mayDown actor = true) :
    s.down.Quiet downSizes actor := by
  intro event internal same
  have stuck := quiet (.down event) internal
  simp only [step] at stuck
  rw [same, if_pos may] at stuck
  exact Option.map_eq_none_iff.mp stuck

theorem Quiet.client (quiet : s.Quiet socks upSizes downSizes) (sound : s.Sound socks addr payload past)
    (ready : s.Ready upSizes past) :
    (∃ initlen, s.client = .copying initlen) ∨ ∃ tx rx, s.client = .returned tx rx := by
  cases client : s.client with
  | opening =>
    have stuck := quiet .firstTimeout rfl
    simp only [step, client] at stuck
    rw [if_pos (ready.opening client).2] at stuck
    cases stuck
  | sending initlen =>
    by_cases void : s.up.held.queue = []
    · have stuck := quiet .sent rfl
      simp only [step, client] at stuck
      rw [if_pos void] at stuck
      cases stuck
    · have stuck := quiet (.initialSend s.up.batch) rfl
      simp only [step, client] at stuck
      have runs : s.up.wire.ended = false := by
        by_contra over_
        have gone := sound.up.shut ready.alive (Bool.not_eq_false _ ▸ over_)
        exact void (gone s.up.held (by simp)).2
      have taking : s.up.staged.ended = false := by
        by_contra over_
        have shut := ready.up.shut (Bool.not_eq_false _ ▸ over_)
        rw [runs] at shut
        cases shut
      have noStaged := (ready.first (by rw [client]; rfl)).1
      exact absurd (Option.map_eq_none_iff.mp stuck) (Way.send_some void noStaged taking runs)
  | copying initlen => exact Or.inl ⟨initlen, rfl⟩
  | returned tx rx => exact Or.inr ⟨tx, rx, rfl⟩
  | failed =>
    have runs := ready.alive.1
    rw [client] at runs
    cases runs

theorem Quiet.upNear (quiet : s.Quiet socks upSizes downSizes) (sound : s.Sound socks addr payload past)
    (ready : s.Ready upSizes past) (runs : s.up.wire.ended = false) : s.up.Quiet upSizes .near := by
  rcases quiet.client sound ready with ⟨initlen, copying⟩ | ⟨tx, rx, returned⟩
  · refine quiet.up ?_
    change s.client.isCopying = true
    rw [copying]
    rfl
  · rw [(sound.counted.returned tx rx returned).2.2.1] at runs
    cases runs

theorem Quiet.server (quiet : s.Quiet socks upSizes downSizes) (sound : s.Sound socks addr payload past)
    (ready : s.Ready upSizes past) (room : 0 < upSizes.wire) :
    (∃ req, s.server = .copying req) ∨ ∃ req tx rx, s.server = .returned req tx rx := by
  cases server : s.server with
  | reading =>
    -- the header would be here, and complete
    obtain ⟨runs, noSink, noGot⟩ := sound.reads.unused (by rw [server]; rfl)
    have stuck := quiet .headerByte rfl
    simp only [step, server] at stuck
    have noWire : s.up.wire.queue = [] := Cell.queue_nil_of_pull runs (Option.map_eq_none_iff.mp stuck)
    obtain ⟨noSource, noHeld, noStaged, -⟩ :=
      Way.near_settled (quiet.upNear sound ready) room noWire ready.up (sound.up.ordered ready.alive)
    have whole := sound.up.whole ready.alive
    have short := sound.reads.short server
    rw [eaten_reading server] at whole
    simp only [Way.line, Line.contents, noSource, noHeld, noStaged, noWire, noSink, noGot, Cell.after, Cell.empty,
      List.append_nil, List.nil_append] at whole
    rw [whole, List.append_assoc] at short
    have complete := readTrojanLikeRequest_encoded socks.toSocks5 ⟨.connect, addr⟩ (payload ++ inbound past)
    change readTrojanLikeRequest socks.toSocks5 (trojanHeader socks.toSocks5 addr ++ _) = _ at complete
    obtain ⟨err, -, failed⟩ := short
    rw [complete] at failed
    cases failed
  | connecting req =>
    have stuck := quiet .connected rfl
    simp only [step, server] at stuck
    have connect := sound.reads.request req (by rw [server]; rfl)
    rw [if_pos (by rw [connect])] at stuck
    cases stuck
  | copying req => exact Or.inl ⟨req, rfl⟩
  | returned req tx rx => exact Or.inr ⟨req, tx, rx, rfl⟩
  | failed req =>
    have runs := ready.alive.2
    rw [server] at runs
    cases runs

theorem Quiet.upSettled (quiet : s.Quiet socks upSizes downSizes) (sound : s.Sound socks addr payload past)
    (ready : s.Ready upSizes past) (wire : 0 < upSizes.wire) (sink : 0 < upSizes.sink) :
    s.up.got.queue = payload ++ inbound past ∧
      (.up .finish ∈ past → s.up.wire.ended = true ∧ s.up.sink.ended = true ∧ s.up.got.ended = true) := by
  have far : s.up.sink.ended = false → s.up.Quiet upSizes .far := by
    intro runs
    rcases quiet.server sound ready wire with ⟨req, copying⟩ | ⟨req, tx, rx, returned⟩
    · refine quiet.up ?_
      change s.server.isCopying = true
      rw [copying]
      rfl
    · rw [(sound.answered.returned req tx rx returned).2.2.1] at runs
      cases runs
  obtain ⟨whole, ends⟩ :=
    Way.settled sound.up ready.alive ready.up (quiet.upNear sound ready) far (quiet.up rfl) wire sink
  exact ⟨sound.targetAll whole, ends⟩

theorem Quiet.downSettled (quiet : s.Quiet socks upSizes downSizes) (sound : s.Sound socks addr payload past)
    (ready : s.Ready upSizes past) (room : 0 < upSizes.wire) (wire : 0 < downSizes.wire) (sink : 0 < downSizes.sink) :
    s.down.got.queue = replies past ∧
      (.down .finish ∈ past → s.down.wire.ended = true ∧ s.down.sink.ended = true ∧ s.down.got.ended = true) := by
  have near : s.down.wire.ended = false → s.down.Quiet downSizes .near := by
    intro runs
    rcases quiet.server sound ready room with ⟨req, copying⟩ | ⟨req, tx, rx, returned⟩
    · refine quiet.down ?_
      change s.server.isCopying = true
      rw [copying]
      rfl
    · rw [(sound.answered.returned req tx rx returned).2.2.2] at runs
      cases runs
  have far : s.down.sink.ended = false → s.down.Quiet downSizes .far := by
    intro runs
    rcases quiet.client sound ready with ⟨initlen, copying⟩ | ⟨tx, rx, returned⟩
    · refine quiet.down ?_
      change s.client.isCopying = true
      rw [copying]
      rfl
    · rw [(sound.counted.returned tx rx returned).2.2.2] at runs
      cases runs
  exact Way.settled sound.down ready.alive ready.down near far (quiet.down rfl) wire sink

/-- Once both streams are closed both ends return. -/
theorem Quiet.returned (quiet : s.Quiet socks upSizes downSizes) (sound : s.Sound socks addr payload past)
    (ready : s.Ready upSizes past) (room : 0 < upSizes.wire) (up : s.up.wire.ended = true ∧ s.up.sink.ended = true)
    (down : s.down.wire.ended = true ∧ s.down.sink.ended = true) :
    s.client = .returned (inbound past).length (replies past).length ∧
      s.server = .returned ⟨.connect, addr⟩ (payload ++ inbound past).length (replies past).length := by
  refine ⟨?_, ?_⟩
  · rcases quiet.client sound ready with ⟨initlen, copying⟩ | ⟨tx, rx, returned⟩
    · have stuck := quiet .clientReturns rfl
      simp only [step, copying] at stuck
      rw [if_pos ⟨up.1, down.2⟩] at stuck
      cases stuck
    · obtain ⟨rfl, rfl⟩ := sound.clientDone ready.alive returned
      exact returned
  · rcases quiet.server sound ready room with ⟨req, copying⟩ | ⟨req, tx, rx, returned⟩
    · have stuck := quiet .serverReturns rfl
      simp only [step, copying] at stuck
      rw [if_pos ⟨up.2, down.1⟩] at stuck
      cases stuck
    · obtain ⟨rfl, rfl⟩ := sound.serverDone ready.alive returned
      cases sound.reads.request req (by rw [returned]; rfl)
      exact returned

theorem run_bounded {more : List OneShotEvent} {t : OneShot} (sound : s.Sound socks addr payload past)
    (internal : ∀ event ∈ more, event.internal = true) (h : run (step socks upSizes downSizes) s more = some t) :
    t.measure socks + more.length ≤ s.measure socks := by
  induction more generalizing s past with
  | nil =>
    cases h
    exact Nat.le_refl _
  | cons event rest ih =>
    obtain ⟨mid, stepped, h⟩ := run_cons.mp h
    have less := ((step_happens stepped).advanced sound.reads (internal event List.mem_cons_self)).measure
    have later := ih (step_sound past s event mid sound stepped)
      (fun e member => internal e (List.mem_cons_of_mem event member)) h
    rw [List.length_cons]
    omega

end OneShot

/-- Both peers have got everything and the end. -/
def answered : OneShot :=
  let gone : Cell UInt8 := ⟨[], true⟩
  ⟨⟨gone, gone, gone, gone, gone, gone, ⟨[7, 1, 2], true⟩, 0, 3, false, 0, 3⟩,
    ⟨gone, gone, gone, gone, gone, gone, ⟨[9], true⟩, 1, 1, true, 1, 1⟩,
    .returned 2 1, .returned ⟨.connect, webServer⟩ 3 1⟩

theorem answered_quiet (event : OneShotEvent) (internal : event.internal = true) :
    answered.step Addr.socks5Sync ⟨8192, 8192⟩ ⟨8192, 8192⟩ event = none := by
  have nothing : ∀ (n : Nat) (got : Cell UInt8), Cell.pull n ⟨[], true⟩ got = none :=
    fun n got => Cell.pull_empty rfl
  cases event with
  | up event =>
    cases event with
    | write | finish => cases internal
    | take n =>
      change ((Cell.pull n ⟨[], true⟩ _).map _).map _ = none
      rw [nothing]
      rfl
    | _ => rfl
  | down event =>
    cases event with
    | write | finish => cases internal
    | take n =>
      change ((Cell.pull n ⟨[], true⟩ _).map _).map _ = none
      rw [nothing]
      rfl
    | _ => rfl
  | clientFails | serverFails => cases internal
  | _ => rfl

end NoisyShuttle.Shuttle
