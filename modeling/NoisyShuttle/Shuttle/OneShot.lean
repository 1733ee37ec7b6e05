import NoisyShuttle.Lib.Line
import NoisyShuttle.Lib.Run
import NoisyShuttle.Shuttle.Http
import NoisyShuttle.Shuttle.Remote
import NoisyShuttle.Shuttle.Udp

/-!
# The one-shot tunnel

One TCP request over a tunnel of its own: `relay_tcp_with` on the client, the `Connect` branch of
`handle_connection` on the server, and `copy_bidirectional` on both. Each direction is a row of buffers from
one peer to the other. The tunnel takes bytes into its write buffer and passes them on to the socket only while
it is polled to write, to flush or to shut down.
-/

namespace NoisyShuttle.Shuttle
open Relation (ReflTransGen TransGen)
open Tunnel (IoError maximumPlaintextLength)

/-- The buffer of `copy_bidirectional`. -/
def copyBufferSize : Nat := 8 * 1024

/-- What the sockets between the ends of the tunnel hold, and those between the far end and the peer behind it. -/
structure Sizes where
  wire : Nat
  sink : Nat

/-- One direction. `held` and `farHeld` are the buffers of the two copies, the one that writes to the tunnel and
the one that reads from it, filled up to `cap` and `farCap`; `staged` is what the tunnel has taken and not passed
to its socket; `got` is what the peer at the end has read. `amt` and `farAmt` are the counts of the copies. -/
structure Way where
  source : Cell UInt8
  held : Cell UInt8
  staged : Cell UInt8
  wire : Cell UInt8
  farHeld : Cell UInt8
  sink : Cell UInt8
  got : Cell UInt8
  cap : Nat
  farCap : Nat
  needFlush : Bool
  amt : Nat
  farAmt : Nat
  deriving DecidableEq

/-- The peers write, finish and take; the near copy reads, sends, emits and shuts down, the far one fetches,
forwards and closes. -/
inductive WayEvent where
  | write (bytes : Bytes)
  | finish
  | read (n : Nat)
  | readEnd
  | send (eager : Nat)
  | emit (n : Nat)
  | shut
  | fetch (n : Nat)
  | fetchEnd
  | forward (n : Nat)
  | close
  | take (n : Nat)
  | takeEnd
  deriving DecidableEq

inductive Actor where
  | peer | near | far
  deriving DecidableEq

def WayEvent.actor : WayEvent → Actor
  | .write _ | .finish | .take _ | .takeEnd => .peer
  | .read _ | .readEnd | .send _ | .emit _ | .shut => .near
  | .fetch _ | .fetchEnd | .forward _ | .close => .far

/-- What the peers do not decide. -/
def WayEvent.internal : WayEvent → Bool
  | .write _ | .finish => false
  | _ => true

def WayEvent.written : WayEvent → Bytes
  | .write bytes => bytes
  | _ => []

namespace Way

def holding (items : Bytes) : Way :=
  ⟨.empty, .holding items, .empty, .empty, .empty, .empty, .empty, 0, 0, false, 0, 0⟩

/-- A buffer of `copy_bidirectional` is filled from the start when it is empty, and topped up otherwise. -/
def filled (buffer : Cell UInt8) (cap : Nat) : Nat := if buffer.queue = [] then 0 else cap

/-- One record of what is held. -/
def batch (w : Way) : Nat := min w.held.queue.length maximumPlaintextLength

/-- `poll_write` of a tunnel with an empty write buffer: the record goes there, and out of it until the socket
is full; `eager` bytes go out at once, some of them perhaps while others are read at the far end. -/
def send (sizes : Sizes) (eager : Nat) (w : Way) : Option Way :=
  if w.staged.queue = [] ∧ (eager < w.batch → sizes.wire ≤ w.wire.queue.length + eager) then
    (w.held.pull w.batch w.staged).bind fun taken =>
      if eager = 0 then some { w with held := taken.1, staged := taken.2 }
      else (taken.2.pull eager w.wire).map fun out => { w with held := taken.1, staged := out.1, wire := out.2 }
  else none

def emit (sizes : Sizes) (n : Nat) (w : Way) : Option Way :=
  if w.wire.queue.length + n ≤ sizes.wire then
    (w.staged.pull n w.wire).map fun out => { w with staged := out.1, wire := out.2 }
  else none

/-- `poll_copy` polls the tunnel to write what it holds, to flush at the end, and to flush what it has written
when there is nothing to read. -/
def flushing (w : Way) : Bool :=
  !w.held.queue.isEmpty || w.held.ended || w.needFlush && w.source.queue.isEmpty && !w.source.ended

def step (sizes : Sizes) (w : Way) : WayEvent → Option Way
  | .write bytes =>
    if w.source.ended then none else some { w with source := { w.source with queue := w.source.queue ++ bytes } }
  | .finish => if w.source.ended then none else some { w with source := { w.source with ended := true } }
  | .read n =>
    if filled w.held w.cap + n ≤ copyBufferSize then
      (w.source.pull n w.held).map fun out =>
        { w with source := out.1, held := out.2, cap := filled w.held w.cap + n }
    else none
  | .readEnd => (w.source.pass w.held).map fun held => { w with held := held }
  | .send eager =>
    (w.send sizes eager).map fun next => { next with needFlush := true, amt := w.amt + w.batch }
  | .emit n =>
    if w.flushing then
      (w.emit sizes n).map fun next =>
        { next with needFlush := w.needFlush && !(next.staged.queue.isEmpty && w.held.queue.isEmpty) }
    else none
  | .shut =>
    (w.held.pass w.staged).bind fun staged =>
      (staged.pass w.wire).map fun wire => { w with staged := staged, wire := wire }
  | .fetch n =>
    if filled w.farHeld w.farCap + n ≤ copyBufferSize then
      (w.wire.pull n w.farHeld).map fun out =>
        { w with wire := out.1, farHeld := out.2, farCap := filled w.farHeld w.farCap + n }
    else none
  | .fetchEnd => (w.wire.pass w.farHeld).map fun farHeld => { w with farHeld := farHeld }
  | .forward n =>
    if w.sink.queue.length + n ≤ sizes.sink then
      (w.farHeld.pull n w.sink).map fun out => { w with farHeld := out.1, sink := out.2, farAmt := w.farAmt + n }
    else none
  | .close => (w.farHeld.pass w.sink).map fun sink => { w with sink := sink }
  | .take n => (w.sink.pull n w.got).map fun out => { w with sink := out.1, got := out.2 }
  | .takeEnd => (w.sink.pass w.got).map fun got => { w with got := got }

/-- The row of buffers, with what was read at its end besides. -/
def line (eaten : Bytes) (w : Way) : List (Cell UInt8) :=
  [w.source, w.held, w.staged, w.wire, w.farHeld, w.sink, w.got.after eaten]

end Way

/-- `opening` waits for the first inbound data, `sending` is the write of `outbuf` with it. -/
inductive ClientStage where
  | opening
  | sending (initlen : Nat)
  | copying (initlen : Nat)
  | returned (tx rx : Nat)
  | failed
  deriving DecidableEq

inductive ServerStage where
  | reading
  | connecting (req : TrojanLikeRequest Addr)
  | copying (req : TrojanLikeRequest Addr)
  | returned (req : TrojanLikeRequest Addr) (tx rx : Nat)
  | failed (req : Option (TrojanLikeRequest Addr))
  deriving DecidableEq

namespace ClientStage

def isCopying : ClientStage → Bool
  | .copying _ => true
  | _ => false

def isFailed : ClientStage → Bool
  | .failed => true
  | _ => false

def isOver : ClientStage → Bool
  | .returned _ _ | .failed => true
  | _ => false

/-- The stages that are to come. -/
def left : ClientStage → Nat
  | .opening => 3
  | .sending _ => 2
  | .copying _ => 1
  | .returned _ _ | .failed => 0

end ClientStage

namespace ServerStage

def isCopying : ServerStage → Bool
  | .copying _ => true
  | _ => false

def isFailed : ServerStage → Bool
  | .failed _ => true
  | _ => false

def isOver : ServerStage → Bool
  | .returned _ _ _ | .failed _ => true
  | _ => false

def left : ServerStage → Nat
  | .reading => 3
  | .connecting _ => 2
  | .copying _ => 1
  | .returned _ _ _ | .failed _ => 0

/-- The copy has not begun. -/
def waits : ServerStage → Bool
  | .reading | .connecting _ => true
  | _ => false

/-- The request that was read. -/
def request : ServerStage → Option (TrojanLikeRequest Addr)
  | .reading => none
  | .connecting req | .copying req | .returned req _ _ => some req
  | .failed req => req

end ServerStage

structure OneShot where
  up : Way
  down : Way
  client : ClientStage
  server : ServerStage
  deriving DecidableEq

/-- When an end fails it drops its streams: of what is in their sockets some arrives, and then the end. -/
inductive OneShotEvent where
  | up (event : WayEvent)
  | down (event : WayEvent)
  | firstRead (n : Nat)
  | firstTimeout
  | initialSend (eager : Nat)
  | initialEmit (n : Nat)
  | sent
  | headerByte
  | connected
  | clientReturns
  | serverReturns
  | clientFails (wire sink : Nat)
  | serverFails (wire sink : Nat)
  deriving DecidableEq

namespace OneShotEvent

def internal : OneShotEvent → Bool
  | .up event | .down event => event.internal
  | .clientFails _ _ | .serverFails _ _ => false
  | _ => true

def fails : OneShotEvent → Bool
  | .clientFails _ _ | .serverFails _ _ => true
  | _ => false

def inbound : OneShotEvent → Bytes
  | .up event => event.written
  | _ => []

def reply : OneShotEvent → Bytes
  | .down event => event.written
  | _ => []

theorem silent {event : OneShotEvent} (internal : event.internal = true) : event.inbound = [] ∧ event.reply = [] := by
  cases event with
  | up event =>
    cases event with
    | write => cases internal
    | _ => exact ⟨rfl, rfl⟩
  | down event =>
    cases event with
    | write => cases internal
    | _ => exact ⟨rfl, rfl⟩
  | _ => exact ⟨rfl, rfl⟩

end OneShotEvent

namespace OneShot

/-- With `outbuf` for `relay_tcp_with`, or written before it without waiting for more. -/
def start (outbuf : Bytes) (direct : Bool) : OneShot :=
  ⟨.holding outbuf, .holding [], if direct then .sending 0 else .opening, .reading⟩

def mayUp (s : OneShot) : Actor → Bool
  | .peer => true
  | .near => s.client.isCopying
  | .far => s.server.isCopying

def mayDown (s : OneShot) : Actor → Bool
  | .peer => true
  | .near => s.server.isCopying
  | .far => s.client.isCopying

/-- `read_trojan_like_request` with one more byte; it waits as long as what it has is too short. -/
def headerByte (socks : Socks5Sync Addr) (s : OneShot) : Option OneShot :=
  (s.up.wire.pull 1 s.up.farHeld).map fun out =>
    match (readTrojanLikeRequest socks.toSocks5 out.2.queue).1 with
    | .ok req => { s with up := { s.up with wire := out.1, farHeld := .empty }, server := .connecting req }
    | .error err =>
      { s with
        up := { s.up with wire := out.1, farHeld := out.2 }
        server := if err.kind = .unexpectedEof then .reading else .failed none }

def step (socks : Socks5Sync Addr) (upSizes downSizes : Sizes) (s : OneShot) : OneShotEvent → Option OneShot
  | .up event => if s.mayUp event.actor then (s.up.step upSizes event).map fun up => { s with up := up } else none
  | .down event =>
    if s.mayDown event.actor then (s.down.step downSizes event).map fun down => { s with down := down } else none
  | .firstRead n =>
    match s.client with
    | .opening =>
      if s.up.held.queue.length + n ≤ maxFirstPacketSize then
        (s.up.source.pull n s.up.held).map fun out =>
          { s with up := { s.up with source := out.1, held := out.2 }, client := .sending n }
      else none
    | _ => none
  | .firstTimeout =>
    match s.client with
    | .opening => if s.up.held.queue.length ≤ maxFirstPacketSize then some { s with client := .sending 0 } else none
    | _ => none
  | .initialSend eager =>
    match s.client with
    | .sending _ => (s.up.send upSizes eager).map fun up => { s with up := up }
    | _ => none
  | .initialEmit n =>
    match s.client with
    | .sending _ =>
      if s.up.held.queue = [] then none else (s.up.emit upSizes n).map fun up => { s with up := up }
    | _ => none
  | .sent =>
    match s.client with
    | .sending initlen => if s.up.held.queue = [] then some { s with client := .copying initlen } else none
    | _ => none
  | .headerByte =>
    match s.server with
    | .reading => s.headerByte socks
    | _ => none
  | .connected =>
    match s.server with
    | .connecting req => if req.cmd = .connect then some { s with server := .copying req } else none
    | _ => none
  | .clientReturns =>
    match s.client with
    | .copying initlen =>
      if s.up.wire.ended ∧ s.down.sink.ended then
        some { s with client := .returned (initlen + s.up.amt) s.down.farAmt }
      else none
    | _ => none
  | .serverReturns =>
    match s.server with
    | .copying req =>
      if s.up.sink.ended ∧ s.down.wire.ended then
        some { s with server := .returned req s.up.farAmt s.down.amt }
      else none
    | _ => none
  | .clientFails wire sink =>
    if s.client.isOver then none
    else some { s with
      up := { s.up with wire := s.up.wire.cut wire }
      down := { s.down with sink := s.down.sink.cut sink }
      client := .failed }
  | .serverFails wire sink =>
    if s.server.isOver then none
    else some { s with
      up := { s.up with sink := s.up.sink.cut sink }
      down := { s.down with wire := s.down.wire.cut wire }
      server := .failed s.server.request }

end OneShot

namespace Way

variable {sizes : Sizes} {w next : Way} {n eager : Nat} {event : WayEvent} {eaten : Bytes}

/-! ## One direction -/

/-- What `send` takes and passes on. -/
theorem send_cases (h : w.send sizes eager = some next) :
    ∃ held staged wire, next = { w with held := held, staged := staged, wire := wire } ∧
      held.queue.length + w.batch = w.held.queue.length ∧
      staged.queue.length + wire.queue.length = w.wire.queue.length + w.batch ∧
      staged.ended = w.staged.ended ∧ wire.ended = w.wire.ended ∧
      (staged.queue = [] ∨ sizes.wire ≤ w.wire.queue.length + eager ∧ eager < w.batch) ∧
      ∀ eaten, TransGen Line.Step (w.line eaten) (next.line eaten) := by
  unfold send at h
  split at h
  · next can =>
    obtain ⟨void, full⟩ := can
    obtain ⟨⟨held, staged⟩, taken, h⟩ := Option.bind_eq_some_iff.mp h
    have first : ∀ eaten, Line.Step (w.line eaten) ({ w with held := held, staged := staged }.line eaten) :=
      fun _ => .later (.pull taken)
    obtain ⟨⟨positive, fits, -⟩, -, stagedIs⟩ := Cell.pull_eq_some.mp taken
    obtain ⟨-, stagedEnded, count, filled⟩ := Cell.pull_length taken
    rw [void, List.length_nil, Nat.zero_add] at filled
    dsimp only at h
    split at h
    · next zero =>
      cases h
      subst zero
      exact ⟨_, _, _, rfl, count, by rw [filled, Nat.add_comm], stagedEnded, rfl, Or.inr ⟨full positive, positive⟩,
        fun eaten => .single (first eaten)⟩
    · obtain ⟨⟨rest, wire⟩, out, rfl⟩ := Option.map_eq_some_iff.mp h
      have second : ∀ eaten, Line.Step ({ w with held := held, staged := staged }.line eaten)
          ({ w with held := held, staged := rest, wire := wire }.line eaten) :=
        fun _ => .later (.later (.pull out))
      obtain ⟨restEnded, wireEnded, less, more⟩ := Cell.pull_length out
      refine ⟨_, _, _, rfl, count, ?_, restEnded.trans stagedEnded, wireEnded, ?_,
        fun eaten => .tail (.single (first eaten)) (second eaten)⟩
      · dsimp only
        omega
      obtain ⟨-, restIs, -⟩ := Cell.pull_eq_some.mp out
      by_cases all : w.batch ≤ eager
      · refine Or.inl ?_
        rw [restIs, stagedIs, void]
        refine List.drop_eq_nil_of_le ?_
        rw [List.nil_append, List.length_take]
        omega
      · exact Or.inr ⟨full (Nat.not_le.mp all), Nat.not_le.mp all⟩
  · cases h

theorem emit_cases (h : w.emit sizes n = some next) :
    ∃ staged wire, next = { w with staged := staged, wire := wire } ∧ w.staged.queue ≠ [] ∧
      staged.ended = w.staged.ended ∧ wire.ended = w.wire.ended ∧
      ∀ eaten, Line.Step (w.line eaten) (next.line eaten) := by
  unfold emit at h
  split at h
  · obtain ⟨⟨staged, wire⟩, out, rfl⟩ := Option.map_eq_some_iff.mp h
    obtain ⟨stagedEnded, wireEnded, -, -⟩ := Cell.pull_length out
    refine ⟨staged, wire, rfl, ?_, stagedEnded, wireEnded, fun _ => .later (.later (.pull out))⟩
    intro void
    rw [Cell.pull_empty void] at out
    cases out
  · cases h

/-- What each event does. -/
inductive Stepped (sizes : Sizes) (w : Way) : WayEvent → Way → Prop
  | write {bytes} (runs : w.source.ended = false) :
    Stepped sizes w (.write bytes) { w with source := { w.source with queue := w.source.queue ++ bytes } }
  | finish (runs : w.source.ended = false) :
    Stepped sizes w .finish { w with source := { w.source with ended := true } }
  | read {n source held cap} (out : w.source.pull n w.held = some (source, held)) :
    Stepped sizes w (.read n) { w with source := source, held := held, cap := cap }
  | readEnd {held} (out : w.source.pass w.held = some held) : Stepped sizes w .readEnd { w with held := held }
  | send {eager held staged wire} (count : held.queue.length + w.batch = w.held.queue.length)
    (stagedEnded : staged.ended = w.staged.ended) (wireEnded : wire.ended = w.wire.ended)
    (line : ∀ eaten, TransGen Line.Step (w.line eaten)
      ({ w with held := held, staged := staged, wire := wire }.line eaten)) :
    Stepped sizes w (.send eager)
      { w with held := held, staged := staged, wire := wire, needFlush := true, amt := w.amt + w.batch }
  | emit {n staged wire} (some_ : w.staged.queue ≠ []) (stagedEnded : staged.ended = w.staged.ended)
    (wireEnded : wire.ended = w.wire.ended) (line : ∀ eaten, Line.Step (w.line eaten)
      ({ w with staged := staged, wire := wire }.line eaten)) :
    Stepped sizes w (.emit n)
      { w with
        staged := staged
        wire := wire
        needFlush := w.needFlush && !(staged.queue.isEmpty && w.held.queue.isEmpty) }
  | shut {staged wire} (first : w.held.pass w.staged = some staged) (second : staged.pass w.wire = some wire) :
    Stepped sizes w .shut { w with staged := staged, wire := wire }
  | fetch {n wire farHeld farCap} (out : w.wire.pull n w.farHeld = some (wire, farHeld)) :
    Stepped sizes w (.fetch n) { w with wire := wire, farHeld := farHeld, farCap := farCap }
  | fetchEnd {farHeld} (out : w.wire.pass w.farHeld = some farHeld) :
    Stepped sizes w .fetchEnd { w with farHeld := farHeld }
  | forward {n farHeld sink} (out : w.farHeld.pull n w.sink = some (farHeld, sink)) :
    Stepped sizes w (.forward n) { w with farHeld := farHeld, sink := sink, farAmt := w.farAmt + n }
  | close {sink} (out : w.farHeld.pass w.sink = some sink) : Stepped sizes w .close { w with sink := sink }
  | take {n sink got} (out : w.sink.pull n w.got = some (sink, got)) :
    Stepped sizes w (.take n) { w with sink := sink, got := got }
  | takeEnd {got} (out : w.sink.pass w.got = some got) : Stepped sizes w .takeEnd { w with got := got }

theorem step_stepped (h : w.step sizes event = some next) : Stepped sizes w event next := by
  cases event with
  | write bytes =>
    simp only [step] at h
    split at h
    · cases h
    · next runs =>
      cases h
      exact .write (Bool.not_eq_true _ ▸ runs)
  | finish =>
    simp only [step] at h
    split at h
    · cases h
    · next runs =>
      cases h
      exact .finish (Bool.not_eq_true _ ▸ runs)
  | read n =>
    simp only [step] at h
    split at h
    · obtain ⟨⟨source, held⟩, out, rfl⟩ := Option.map_eq_some_iff.mp h
      exact .read out
    · cases h
  | readEnd =>
    obtain ⟨held, out, rfl⟩ := Option.map_eq_some_iff.mp h
    exact .readEnd out
  | send eager =>
    obtain ⟨sent, out, rfl⟩ := Option.map_eq_some_iff.mp h
    obtain ⟨held, staged, wire, rfl, count, -, stagedEnded, wireEnded, -, line⟩ := send_cases out
    exact .send count stagedEnded wireEnded line
  | emit n =>
    simp only [step] at h
    split at h
    · obtain ⟨sent, out, rfl⟩ := Option.map_eq_some_iff.mp h
      obtain ⟨staged, wire, rfl, some_, stagedEnded, wireEnded, line⟩ := emit_cases out
      exact .emit some_ stagedEnded wireEnded line
    · cases h
  | shut =>
    obtain ⟨staged, first, h⟩ := Option.bind_eq_some_iff.mp h
    obtain ⟨wire, second, rfl⟩ := Option.map_eq_some_iff.mp h
    exact .shut first second
  | fetch n =>
    simp only [step] at h
    split at h
    · obtain ⟨⟨wire, farHeld⟩, out, rfl⟩ := Option.map_eq_some_iff.mp h
      exact .fetch out
    · cases h
  | fetchEnd =>
    obtain ⟨farHeld, out, rfl⟩ := Option.map_eq_some_iff.mp h
    exact .fetchEnd out
  | forward n =>
    simp only [step] at h
    split at h
    · obtain ⟨⟨farHeld, sink⟩, out, rfl⟩ := Option.map_eq_some_iff.mp h
      exact .forward out
    · cases h
  | close =>
    obtain ⟨sink, out, rfl⟩ := Option.map_eq_some_iff.mp h
    exact .close out
  | take n =>
    obtain ⟨⟨sink, got⟩, out, rfl⟩ := Option.map_eq_some_iff.mp h
    exact .take out
  | takeEnd =>
    obtain ⟨got, out, rfl⟩ := Option.map_eq_some_iff.mp h
    exact .takeEnd out

/-- What a step of the copies or of the reading peer does. -/
structure Moved (w next : Way) : Prop where
  line : ∀ eaten, TransGen Line.Step (w.line eaten) (next.line eaten)
  finished : next.source.ended = w.source.ended
  sent : next.amt + next.held.queue.length + next.source.queue.length =
    w.amt + w.held.queue.length + w.source.queue.length
  forwarded : next.farAmt + (w.sink.queue.length + w.got.queue.length) =
    w.farAmt + (next.sink.queue.length + next.got.queue.length)

theorem Moved.single (line : ∀ eaten, Line.Step (w.line eaten) (next.line eaten))
    (finished : next.source.ended = w.source.ended)
    (sent : next.amt + next.held.queue.length + next.source.queue.length =
      w.amt + w.held.queue.length + w.source.queue.length)
    (forwarded : next.farAmt + (w.sink.queue.length + w.got.queue.length) =
      w.farAmt + (next.sink.queue.length + next.got.queue.length)) : Moved w next :=
  ⟨fun eaten => .single (line eaten), finished, sent, forwarded⟩

theorem Stepped.moved (h : Stepped sizes w event next) (internal : event.internal = true) : Moved w next := by
  cases h with
  | write => cases internal
  | finish => cases internal
  | read out =>
    obtain ⟨ended, -, less, more⟩ := Cell.pull_length out
    refine .single (fun _ => .pull out) ended ?_ rfl
    dsimp only
    omega
  | readEnd out =>
    refine .single (fun _ => .pass out) rfl ?_ rfl
    dsimp only
    rw [(Cell.pass_queue out).2]
  | send count _ _ line =>
    refine ⟨line, rfl, ?_, rfl⟩
    dsimp only
    omega
  | emit _ _ _ line => exact .single line rfl rfl rfl
  | @shut staged wire first second =>
    refine ⟨?_, rfl, rfl, rfl⟩
    intro eaten
    have flushed : Line.Step (w.line eaten) ({ w with staged := staged }.line eaten) := .later (.pass first)
    exact .tail (.single flushed) (.later (.later (.pass second)))
  | fetch out => exact .single (fun _ => .later (.later (.later (.pull out)))) rfl rfl rfl
  | fetchEnd out => exact .single (fun _ => .later (.later (.later (.pass out)))) rfl rfl rfl
  | forward out =>
    obtain ⟨-, -, -, more⟩ := Cell.pull_length out
    refine .single (fun _ => .later (.later (.later (.later (.pull out))))) rfl rfl ?_
    dsimp only
    omega
  | close out =>
    refine .single (fun _ => .later (.later (.later (.later (.pass out))))) rfl rfl ?_
    dsimp only
    rw [(Cell.pass_queue out).2]
  | take out =>
    obtain ⟨-, -, less, more⟩ := Cell.pull_length out
    refine .single (fun eaten => .later (.later (.later (.later (.later (.pull (Cell.pull_after eaten out)))))))
      rfl rfl ?_
    dsimp only
    omega
  | takeEnd out =>
    refine .single (fun eaten => .later (.later (.later (.later (.later (.pass (Cell.pass_after eaten out)))))))
      rfl rfl ?_
    dsimp only
    rw [(Cell.pass_queue out).2]

theorem Stepped.near (h : Stepped sizes w event next) (other : event.actor ≠ .near) :
    next.held = w.held ∧ next.staged = w.staged ∧ next.amt = w.amt ∧ next.needFlush = w.needFlush ∧
      next.source.queue = w.source.queue ++ event.written := by
  cases h with
  | write => exact ⟨rfl, rfl, rfl, rfl, rfl⟩
  | read | readEnd | send | emit | shut => exact absurd rfl other
  | _ => exact ⟨rfl, rfl, rfl, rfl, (List.append_nil _).symm⟩

theorem Stepped.far (h : Stepped sizes w event next) (other : event.actor ≠ .far) :
    next.farHeld = w.farHeld ∧ next.farAmt = w.farAmt := by
  cases h with
  | fetch | fetchEnd | forward | close => exact absurd rfl other
  | _ => exact ⟨rfl, rfl⟩

/-- The peer takes nothing that the far copy has not forwarded. -/
theorem Stepped.unused (h : Stepped sizes w event next) (other : event.actor ≠ .far) (unused : w.sink = .empty) :
    next.sink = .empty ∧ next.got = w.got := by
  cases h with
  | fetch | fetchEnd | forward | close => exact absurd rfl other
  | take out =>
    rw [Cell.pull_empty (by rw [unused]; rfl)] at out
    cases out
  | takeEnd out =>
    obtain ⟨⟨ended, -⟩, -⟩ := Cell.pass_eq_some.mp out
    rw [unused] at ended
    cases ended
  | _ => exact ⟨unused, rfl⟩

theorem Stepped.nothing (h : Stepped sizes w event next) (other : event.actor ≠ .far) (void : w.sink.queue = []) :
    next.sink.queue = [] ∧ next.got.queue = w.got.queue := by
  cases h with
  | fetch | fetchEnd | forward | close => exact absurd rfl other
  | take out =>
    rw [Cell.pull_empty void] at out
    cases out
  | takeEnd out => exact ⟨void, (Cell.pass_queue out).2⟩
  | _ => exact ⟨void, rfl⟩

theorem Stepped.wire (h : Stepped sizes w event next) (ended : w.wire.ended = true) : next.wire.ended = true := by
  cases h with
  | send _ _ same => exact same.trans ended
  | emit _ _ same => exact same.trans ended
  | shut _ second => exact (Cell.pass_queue second).1
  | fetch out => exact (Cell.pull_length out).1.trans ended
  | _ => exact ended

theorem Stepped.sink (h : Stepped sizes w event next) (ended : w.sink.ended = true) : next.sink.ended = true := by
  cases h with
  | forward out => exact (Cell.pull_length out).2.1.trans ended
  | close out => exact (Cell.pass_queue out).1
  | take out => exact (Cell.pull_length out).1.trans ended
  | _ => exact ended

theorem Stepped.sent (h : Stepped sizes w event next) :
    next.amt + next.held.queue.length + next.source.queue.length =
      w.amt + w.held.queue.length + w.source.queue.length + event.written.length := by
  cases internal : event.internal with
  | true =>
    have silent : event.written = [] := by
      cases h with
      | write => cases internal
      | _ => rfl
    rw [(h.moved internal).sent, silent, List.length_nil, Nat.add_zero]
  | false =>
    cases h with
    | write =>
      dsimp only [WayEvent.written]
      rw [List.length_append]
      omega
    | finish => rfl
    | _ => cases internal

/-! ## A stream on its way -/

/-- `total` is what was to be sent in this direction and `eaten` what of it was read as a header. -/
structure Flow (eaten total : Bytes) (alive finished : Prop) (w : Way) : Prop where
  carries : Line.Carries total (w.line eaten)
  whole : alive → Line.contents (w.line eaten) = total
  ordered : alive → Line.Ordered (w.line eaten)
  forwarded : alive → w.farAmt = w.sink.queue.length + w.got.queue.length
  source : alive → w.source.ended = true → finished

variable {total : Bytes} {alive alive' finished finished' : Prop}

theorem Flow.weaken (flow : Flow eaten total alive finished w) (less : alive' → alive) (more : finished → finished') :
    Flow eaten total alive' finished' w :=
  ⟨flow.carries, fun live => flow.whole (less live), fun live => flow.ordered (less live),
    fun live => flow.forwarded (less live), fun live ended => more (flow.source (less live) ended)⟩

theorem Flow.along {eaten' : Bytes} (flow : Flow eaten total alive finished w)
    (line : ReflTransGen Line.Step (w.line eaten) (next.line eaten')) (ended : next.source.ended = w.source.ended)
    (forwarded : next.farAmt + (w.sink.queue.length + w.got.queue.length) =
      w.farAmt + (next.sink.queue.length + next.got.queue.length)) : Flow eaten' total alive finished next := by
  refine ⟨Line.carries_steps line flow.carries, ?_, ?_, ?_, ?_⟩
  · intro live
    rw [Line.contents_steps line, flow.whole live]
  · intro live
    exact Line.ordered_steps line (flow.ordered live)
  · intro live
    have before := flow.forwarded live
    omega
  · intro live now
    exact flow.source live (ended.symm.trans now)

theorem Flow.step (flow : Flow eaten total alive finished w) (h : Stepped sizes w event next) :
    Flow eaten (total ++ event.written) alive (finished ∨ event = .finish) next := by
  cases internal : event.internal with
  | true =>
    have silent : event.written = [] := by
      cases h with
      | write => cases internal
      | _ => rfl
    have moved := h.moved internal
    rw [silent, List.append_nil]
    exact (flow.along (moved.line eaten).to_reflTransGen moved.finished moved.forwarded).weaken id Or.inl
  | false =>
    cases h with
    | write runs =>
      refine ⟨flow.carries.write _ runs, ?_, ?_, flow.forwarded, ?_⟩
      · intro live
        rw [← flow.whole live]
        exact (List.append_assoc _ _ _).symm
      · intro live
        obtain ⟨before, behind⟩ := List.isChain_cons_cons.mp (flow.ordered live)
        refine List.isChain_cons_cons.mpr ⟨?_, behind⟩
        intro ended
        rw [(before ended).1] at runs
        cases runs
      · intro live ended
        exact Or.inl (flow.source live ended)
    | finish runs =>
      have silent : WayEvent.finish.written = [] := rfl
      rw [silent, List.append_nil]
      refine ⟨flow.carries.finish, flow.whole, ?_, flow.forwarded, fun _ _ => Or.inr rfl⟩
      intro live
      obtain ⟨before, behind⟩ := List.isChain_cons_cons.mp (flow.ordered live)
      refine List.isChain_cons_cons.mpr ⟨?_, behind⟩
      intro ended
      exact ⟨rfl, (before ended).2⟩
    | _ => cases internal

theorem Flow.cutWire (flow : Flow eaten total alive finished w) (n : Nat) (dead : ¬ alive') :
    Flow eaten total alive' finished' { w with wire := w.wire.cut n } := by
  have carries : Line.Carries total
      ([w.source, w.held, w.staged] ++ w.wire :: [w.farHeld, w.sink, w.got.after eaten]) :=
    flow.carries
  exact ⟨carries.cut n [w.source, w.held, w.staged], fun live => absurd live dead, fun live => absurd live dead,
    fun live => absurd live dead, fun live => absurd live dead⟩

theorem Flow.cutSink (flow : Flow eaten total alive finished w) (n : Nat) (dead : ¬ alive') :
    Flow eaten total alive' finished' { w with sink := w.sink.cut n } := by
  have carries : Line.Carries total
      ([w.source, w.held, w.staged, w.wire, w.farHeld] ++ w.sink :: [w.got.after eaten]) := flow.carries
  exact ⟨carries.cut n [w.source, w.held, w.staged, w.wire, w.farHeld], fun live => absurd live dead,
    fun live => absurd live dead, fun live => absurd live dead, fun live => absurd live dead⟩

/-- What the peer has got. -/
theorem Flow.got (flow : Flow eaten total alive finished w) : eaten ++ w.got.queue <+: total :=
  Line.Carries.last [w.source, w.held, w.staged, w.wire, w.farHeld, w.sink] flow.carries

/-- As long as nothing is forwarded the far end holds the first of what is sent. -/
theorem Flow.header {wire farHeld : Cell UInt8} (flow : Flow [] total alive finished w)
    (out : w.wire.pull n w.farHeld = some (wire, farHeld)) (runs : farHeld.ended = false)
    (noSink : w.sink = .empty) (noGot : w.got = .empty) : farHeld.queue <+: total := by
  have line : Line.Step (w.line []) ({ w with wire := wire, farHeld := farHeld }.line []) :=
    .later (.later (.later (.pull out)))
  have carries := Line.carries_steps (.single line) flow.carries
  rcases Line.Carries.behind [w.source, w.held, w.staged, wire] carries with first | ⟨ended, -⟩ | ⟨ended, -⟩ |
    ⟨ended, -⟩ | nothing
  · rw [noSink, noGot] at first
    exact first
  · rw [runs] at ended
    cases ended
  · rw [noSink] at ended
    cases ended
  · rw [noGot] at ended
    cases ended
  · cases nothing

/-- The peer gets the end after everything else. -/
theorem Flow.arrived (flow : Flow eaten total alive finished w) (live : alive) (ended : w.got.ended = true) :
    eaten ++ w.got.queue = total ∧ finished := by
  have ordered : Line.Ordered ([w.source, w.held, w.staged, w.wire, w.farHeld, w.sink] ++ [w.got.after eaten]) :=
    flow.ordered live
  obtain ⟨whole, all⟩ := ordered.arrived ended
  refine ⟨?_, flow.source live (all w.source List.mem_cons_self).1⟩
  rw [← flow.whole live]
  exact whole.symm

/-- When the near copy has shut the tunnel down, everything has gone out. -/
theorem Flow.shut (flow : Flow eaten total alive finished w) (live : alive) (ended : w.wire.ended = true) :
    ∀ c ∈ [w.source, w.held, w.staged], c.ended = true ∧ c.queue = [] := by
  have ordered : Line.Ordered ([w.source, w.held, w.staged] ++ [w.wire] ++ [w.farHeld, w.sink, w.got.after eaten]) :=
    flow.ordered live
  exact (Line.Ordered.arrived ordered.left_of_append ended).2

/-- When the far copy has closed the stream to the peer, everything is there. -/
theorem Flow.closed (flow : Flow eaten total alive finished w) (live : alive) (ended : w.sink.ended = true) :
    eaten ++ (w.got.queue ++ w.sink.queue) = total := by
  have ordered : Line.Ordered ([w.source, w.held, w.staged, w.wire, w.farHeld] ++ [w.sink] ++ [w.got.after eaten]) :=
    flow.ordered live
  have there := (Line.Ordered.arrived ordered.left_of_append ended).1
  have whole : Line.contents ([w.source, w.held, w.staged, w.wire, w.farHeld] ++ [w.sink] ++ [w.got.after eaten]) =
      total := flow.whole live
  rw [Line.contents_append, there] at whole
  rw [← whole, ← List.append_assoc]
  rfl

end Way

end NoisyShuttle.Shuttle
