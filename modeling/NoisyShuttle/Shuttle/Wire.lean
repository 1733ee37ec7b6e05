import NoisyShuttle.Lib.Run
import NoisyShuttle.Shuttle.Isolation

/-!
# Requests on a reused session are kept apart

The client, the session loop and the bytes between them. A `read_frame` future keeps the bytes it has read to
itself, and they are lost when another branch of its `select!` wins. As long as this happens to no loop that goes
on, each end has the frames of the other before it, and what `Isolation` says of frames holds of bytes.
-/

namespace NoisyShuttle.Shuttle
open Session
open Tunnel (IoError)

/-- One direction of a session: the bytes in the `read_frame` future at its end, those that have arrived there and
those that have not. -/
structure Link where
  taken : Bytes
  avail : Bytes
  coming : Bytes

namespace Link

def fresh : Link := ⟨[], [], []⟩

def bytes (link : Link) : Bytes := link.taken ++ link.avail ++ link.coming

def send (frames : List Frame) (link : Link) : Link :=
  { link with coming := link.coming ++ (frames.map Frame.bytes).flatten }

def arrive (n : Nat) (link : Link) : Link :=
  { link with avail := link.avail ++ link.coming.take n, coming := link.coming.drop n }

/-- The future is dropped with what it has read. -/
def cut (link : Link) : Link := { link with taken := [] }

def poll (link : Link) : Option (Except FrameError Frame) × Link :=
  match pollFrame link.taken link.avail with
  | .pending taken => (none, { link with taken := taken, avail := [] })
  | .ready result rest => (some result, { link with taken := [], avail := rest })

end Link

/-- `asked` is what the application has asked for, sent and got, `served` what the session loop has opened, given to
the targets and got from them. -/
structure Wired where
  client : ClientPhase
  server : ServerSession
  up : Link
  down : Link
  asked : Log
  served : Log

/-- A reader is lost when its link ends or fails; `server` are the events of the session loop other than frames. -/
inductive WiredEvent where
  | arriveUp (n : Nat)
  | arriveDown (n : Nat)
  | openRequest (cmd atyp : UInt8) (addr : Bytes) (port : UInt16)
  | firstPacket (data : Option Bytes)
  | inbound (read : Except IoError Bytes)
  | clientPoll
  | clientLost (err : FrameError)
  | serverPoll (now : Nat)
  | serverLost (err : FrameError) (now : Nat)
  | server (event : LoopEvent) (now : Nat)

/-- The phases in which the loop polls `read_frame`. -/
def Phase.reads : Phase → Bool
  | .negotiating _ | .waiting _ => true
  | .relaying relay _ => !relay.clientEnded
  | .connecting | .stalled | .finished _ => false

namespace Wired

/-- The two ends without what is between them. -/
def ends (w : Wired) : Pair := ⟨w.client, w.server, [], []⟩

/-- The ends go on and write their frames. One that is too long cannot be encoded: the writer panics, and there is no
next state. -/
def follow (next : Pair) (w : Wired) : Option Wired :=
  if ∀ f ∈ next.uplink ++ next.downlink, f.Sized then
    some { w with
      client := next.client
      server := next.server
      up := w.up.send next.uplink
      down := w.down.send next.downlink }
  else none

def ask (config : LoopConfig) (event : PairEvent) (w : Wired) : Option Wired :=
  (w.ends.step config event).bind fun next => { w with asked := requested w.asked event }.follow next

def receive (relay : ClientRelay) (result : Except FrameError Frame) (w : Wired) : Option Wired :=
  { w with asked := addDown (relay.frameRead result).delivered w.asked }.follow
    (w.ends.clientBranch relay.clientClosed (relay.frameRead result))

def serve (config : LoopConfig) (event : LoopEvent) (now : Nat) (w : Wired) : Option Wired :=
  (w.ends.serverStep config event now).bind fun next =>
    { w with served := noted w.server.phase event next.server.phase w.served }.follow next

def step (config : LoopConfig) (w : Wired) : WiredEvent → Option Wired
  | .arriveUp n => some { w with up := w.up.arrive n }
  | .arriveDown n => some { w with down := w.down.arrive n }
  | .openRequest cmd atyp addr port => w.ask config (.openRequest cmd atyp addr port)
  | .firstPacket data => w.ask config (.firstPacket data)
  | .inbound read => { w with down := w.down.cut }.ask config (.inbound read)
  | .clientPoll =>
    match w.client with
    | .relaying relay =>
      match w.down.poll with
      | (none, down) => some { w with down := down }
      | (some result, down) => { w with down := down }.receive relay result
    | _ => none
  | .clientLost err =>
    match w.client with
    | .relaying relay => w.receive relay (.error err)
    | _ => none
  | .serverPoll now =>
    if w.server.phase.reads then
      match w.up.poll with
      | (none, up) => some { w with up := up }
      | (some result, up) => { w with up := up }.serve config (.frame result) now
    else none
  | .serverLost err now => if w.server.phase.reads then w.serve config (.frame (.error err)) now else none
  | .server event now =>
    match event with
    | .frame _ => none
    -- a value is sent from outside of the loop
    | .sendShutdown value => w.serve config (.sendShutdown value) now
    | event => { w with up := w.up.cut }.serve config event now

def start (idleAt : Nat) : Wired where
  client := .pooled
  server := (Pair.start idleAt).server
  up := .fresh
  down := .fresh
  asked := []
  served := []

/-- A loop that drops a `read_frame` future with bytes in it does not go on. -/
def Undisturbed (config : LoopConfig) (w : Wired) : WiredEvent → Bool
  | .inbound (.ok _) => w.down.taken.isEmpty
  | .server (.sendShutdown _) _ => true
  | .server event now => w.up.taken.isEmpty || w.server.isLast config now event
  | _ => true

end Wired

/-! ## Frames on a link -/

namespace Link

/-- What is on the link are whole frames, of the first of which a part may have been read. -/
def Carries (link : Link) (frames : List Frame) : Prop :=
  (∀ f ∈ frames, f.Sized) ∧ link.bytes = (frames.map Frame.bytes).flatten

variable {link : Link} {frames more : List Frame}

theorem fresh_carries : fresh.Carries [] := by
  refine ⟨?_, rfl⟩
  intro f member
  cases member

theorem Carries.send (carries : link.Carries frames) (sized : ∀ f ∈ more, f.Sized) :
    (link.send more).Carries (frames ++ more) := by
  obtain ⟨old, whole⟩ := carries
  constructor
  · intro f member
    rcases List.mem_append.mp member with earlier | later
    · exact old f earlier
    · exact sized f later
  · rw [List.map_append, List.flatten_append, ← whole]
    simp [Link.send, Link.bytes]

theorem Carries.arrive (carries : link.Carries frames) (n : Nat) : (link.arrive n).Carries frames := by
  refine ⟨carries.1, ?_⟩
  rw [← carries.2]
  simp [Link.arrive, Link.bytes]

theorem Carries.cut (carries : link.Carries frames) (empty : link.taken = []) : link.cut.Carries frames := by
  refine ⟨carries.1, ?_⟩
  rw [← carries.2, Link.cut, Link.bytes, Link.bytes, empty]

theorem Carries.poll (carries : link.Carries frames) :
    (∃ after, link.poll = (none, after) ∧ after.Carries frames) ∨
    ∃ frame rest after, frames = frame :: rest ∧ link.poll = (some (.ok frame), after) ∧ after.Carries rest := by
  obtain ⟨sized, whole⟩ := carries
  unfold Link.poll
  rcases pollFrame_frames sized whole with pending | ⟨frame, rest, left, rfl, ready, follows⟩
  · rw [pending]
    refine Or.inl ⟨_, rfl, sized, ?_⟩
    rw [← whole]
    simp [Link.bytes]
  · rw [ready]
    exact Or.inr ⟨frame, rest, _, rfl, rfl, (List.forall_mem_cons.mp sized).2, follows⟩

theorem Carries.eq_nil (carries : link.Carries frames) (empty : link.bytes = []) : frames = [] := by
  cases frames with
  | nil => rfl
  | cons frame rest =>
    have whole := carries.2
    rw [empty, List.map_cons, List.flatten_cons] at whole
    have none := (List.append_eq_nil_iff.mp whole.symm).1
    cases none

end Link

/-! ## The ends and what is between them -/

theorem Pair.step_links {config : LoopConfig} {event : PairEvent} {client : ClientPhase} {server : ServerSession}
    {next : Pair} (apart : ∀ now, event ≠ .serverFrame now) (own : ∀ other now, event ≠ .server other now)
    (h : Pair.step config ⟨client, server, [], []⟩ event = some next) (uplink downlink : List Frame) :
    client.alive = true ∧ next.server = server ∧ next.downlink = [] ∧
      Pair.step config ⟨client, server, uplink, downlink⟩ event =
        some ⟨next.client, server, uplink ++ next.uplink, downlink⟩ := by
  cases event with
  | openRequest cmd atyp addr port =>
    cases client with
    | pooled =>
      cases h
      exact ⟨rfl, rfl, rfl, rfl⟩
    | _ => cases h
  | firstPacket data =>
    cases client with
    | opened =>
      rcases data with _ | _ | ⟨byte, more⟩ <;>
      · cases h
        exact ⟨rfl, rfl, rfl, by simp [Pair.step]⟩
    | _ => cases h
  | inbound read =>
    cases client with
    | relaying relay =>
      simp only [Pair.step] at h ⊢
      split at h
      · cases h
      · next listening =>
        cases h
        rw [if_neg listening]
        rcases read with err | _ | ⟨byte, more⟩
        · exact ⟨rfl, rfl, rfl, by simp [Pair.clientBranch, ClientRelay.inboundRead]⟩
        · exact ⟨rfl, rfl, rfl, rfl⟩
        · exact ⟨rfl, rfl, rfl, rfl⟩
    | _ => cases h
  | clientFrame => cases client <;> cases h
  | serverFrame now => exact absurd rfl (apart now)
  | server other now => exact absurd rfl (own other now)

theorem Pair.clientBranch_links (client : ClientPhase) (server : ServerSession) (closed : Bool)
    (branch : Branch ClientRelay) (uplink downlink : List Frame) :
    (Pair.mk client server uplink downlink).clientBranch closed branch =
      ⟨((Pair.mk client server [] []).clientBranch closed branch).client, server,
        uplink ++ ((Pair.mk client server [] []).clientBranch closed branch).uplink, downlink⟩ ∧
    ((Pair.mk client server [] []).clientBranch closed branch).server = server ∧
    ((Pair.mk client server [] []).clientBranch closed branch).downlink = [] := by
  cases branch with
  | finish result => cases result <;> simp [clientBranch]
  | _ => simp [clientBranch]

namespace ServerSession

variable {s t : ServerSession} {config : LoopConfig} {now : Nat}

/-- An error of `read_frame` is the end of the session. -/
theorem over_of_frame_error {err : FrameError} (h : s.step config ⟨.frame (.error err), now, [], .ok ()⟩ = some t) :
    t.phase.isOver = true := by
  rcases step_cases h with ⟨value, sends, rfl⟩ | ⟨watching, phase, h⟩ | ⟨idleAt, phase, h⟩ | ⟨phase, h⟩ |
    ⟨relay, drainAt, phase, h⟩
  · cases sends
  · cases h
    obtain ⟨-, -, -, gone⟩ := @reset_leaves (s.begin ⟨.frame (.error err), now, [], .ok ()⟩) rfl .protocolError
    exact gone
  · cases h
    obtain ⟨-, -, -, gone⟩ := @reset_leaves (s.begin ⟨.frame (.error err), now, [], .ok ()⟩) rfl .protocolError
    exact gone
  · cases h
  · simp only [relaying] at h
    split at h
    · cases h
    · cases h
      obtain ⟨-, -, -, gone⟩ := @reset_leaves (s.begin ⟨.frame (.error err), now, [], .ok ()⟩) rfl .serverError
      exact gone

end ServerSession

/-! ## Whole runs -/

namespace Wired

/-- The ends with the frames between them. -/
def view (w : Wired) (uplink downlink : List Frame) : Traced :=
  ⟨⟨w.client, w.server, uplink, downlink⟩, w.asked, w.served⟩

/-- An end that may still read has whole frames before it. -/
structure Inv (w : Wired) (uplink downlink : List Frame) : Prop where
  traced : (w.view uplink downlink).Inv
  up : w.server.phase.isOver = false → w.up.Carries uplink
  down : w.client.alive = true → w.down.Carries downlink

theorem start_inv (idleAt : Nat) : (start idleAt).Inv [] [] :=
  ⟨Traced.start_inv idleAt, fun _ => Link.fresh_carries, fun _ => Link.fresh_carries⟩

variable {w after : Wired} {config : LoopConfig} {uplink downlink : List Frame} {next : Pair} {now : Nat}

theorem follow_inv (uplink downlink : List Frame) (h : w.follow next = some after)
    (traced : Traced.Inv ⟨⟨next.client, next.server, uplink ++ next.uplink, downlink ++ next.downlink⟩, w.asked,
      w.served⟩)
    (up : next.server.phase.isOver = false → w.up.Carries uplink)
    (down : next.client.alive = true → w.down.Carries downlink) : ∃ uplink downlink, after.Inv uplink downlink := by
  obtain ⟨sized, same⟩ := Option.ite_none_right_eq_some.mp h
  cases same
  refine ⟨uplink ++ next.uplink, downlink ++ next.downlink, traced, ?_, ?_⟩
  · intro runs
    exact (up runs).send fun f member => sized f (List.mem_append_left _ member)
  · intro alive
    exact (down alive).send fun f member => sized f (List.mem_append_right _ member)

theorem ask_inv {event : PairEvent} (apart : ∀ now, event ≠ .serverFrame now)
    (own : ∀ other now, event ≠ .server other now) (h : w.ask config event = some after)
    (traced : ∀ next, Pair.step config ⟨w.client, w.server, uplink, downlink⟩ event = some next →
      Traced.Inv ⟨next, requested w.asked event, w.served⟩)
    (up : w.server.phase.isOver = false → w.up.Carries uplink)
    (down : ∀ next, w.ends.step config event = some next → w.client.alive = true → next.client.alive = true →
      w.down.Carries downlink) :
    ∃ uplink downlink, after.Inv uplink downlink := by
  obtain ⟨next, stepped, h⟩ := Option.bind_eq_some_iff.mp h
  obtain ⟨alive, server, silent, links⟩ := Pair.step_links apart own stepped uplink downlink
  refine follow_inv uplink downlink h ?_ ?_ (down next stepped alive)
  · rw [server, silent, List.append_nil]
    exact traced _ links
  · rw [server]
    exact up

theorem receive_inv {relay : ClientRelay} {result : Except FrameError Frame} (h : w.receive relay result = some after)
    (traced : Traced.Inv ⟨(Pair.mk w.client w.server uplink downlink).clientBranch relay.clientClosed
        (relay.frameRead result), addDown (relay.frameRead result).delivered w.asked, w.served⟩)
    (up : w.server.phase.isOver = false → w.up.Carries uplink)
    (down : (w.ends.clientBranch relay.clientClosed (relay.frameRead result)).client.alive = true →
      w.down.Carries downlink) :
    ∃ uplink downlink, after.Inv uplink downlink := by
  obtain ⟨links, server, silent⟩ := Pair.clientBranch_links w.client w.server relay.clientClosed
    (relay.frameRead result) uplink downlink
  refine follow_inv uplink downlink h ?_ ?_ down
  · rw [ends, server, silent, List.append_nil, ← links]
    exact traced
  · rw [ends, server]
    exact up

theorem serve_inv {event : LoopEvent} {rest : List Frame} (h : w.serve config event now = some after)
    (inv : (w.view uplink downlink).Inv) (front : uplink = Traced.taken event ++ rest)
    (up : ∀ next, w.server.step config ⟨event, now, [], .ok ()⟩ = some next → next.phase.isOver = false →
      w.up.Carries rest)
    (down : w.client.alive = true → w.down.Carries downlink) :
    ∃ uplink downlink, after.Inv uplink downlink := by
  obtain ⟨next, stepped, h⟩ := Option.bind_eq_some_iff.mp h
  obtain ⟨server, served, rfl⟩ := Option.map_eq_some_iff.mp stepped
  have traced := Traced.server_inv inv front served
  refine follow_inv rest downlink h ?_ (up server served) down
  rw [ends, List.append_nil, List.nil_append]
  exact traced

theorem clientPoll_inv (inv : w.Inv uplink downlink) (h : w.step config .clientPoll = some after) :
    ∃ uplink downlink, after.Inv uplink downlink := by
  simp only [step] at h
  split at h
  · next relay relaying =>
    have carries := inv.down (by rw [relaying]; rfl)
    rcases carries.poll with ⟨link, polled, same⟩ | ⟨frame, rest, link, rfl, polled, later⟩
    · rw [polled] at h
      cases h
      exact ⟨uplink, downlink, inv.traced, inv.up, fun _ => same⟩
    · rw [polled] at h
      exact receive_inv h (Traced.clientFrame_inv inv.traced relaying rfl) inv.up fun _ => later
  · cases h

theorem clientLost_inv {err : FrameError} (inv : w.Inv uplink downlink)
    (h : w.step config (.clientLost err) = some after) : ∃ uplink downlink, after.Inv uplink downlink := by
  simp only [step] at h
  split at h
  · next relay relaying =>
    refine receive_inv h (Traced.clientLost_inv inv.traced relaying err downlink) inv.up ?_
    intro alive
    cases alive
  · cases h

theorem serverPoll_inv (inv : w.Inv uplink downlink) (h : w.step config (.serverPoll now) = some after) :
    ∃ uplink downlink, after.Inv uplink downlink := by
  obtain ⟨reads, h⟩ := Option.ite_none_right_eq_some.mp h
  have running : w.server.phase.isOver = false := by
    cases phase : w.server.phase with
    | finished result =>
      rw [phase] at reads
      cases reads
    | _ => rfl
  rcases (inv.up running).poll with ⟨link, polled, same⟩ | ⟨frame, rest, link, rfl, polled, later⟩
  · rw [polled] at h
    cases h
    exact ⟨uplink, downlink, inv.traced, fun _ => same, inv.down⟩
  · rw [polled] at h
    exact serve_inv h inv.traced rfl (fun _ _ _ => later) inv.down

theorem server_inv {event : LoopEvent} (inv : w.Inv uplink downlink)
    (ok : w.Undisturbed config (.server event now) = true) (h : w.step config (.server event now) = some after) :
    ∃ uplink downlink, after.Inv uplink downlink := by
  have goes (ok : w.up.taken.isEmpty || w.server.isLast config now event) (nothing : Traced.taken event = [])
      (h : { w with up := w.up.cut }.serve config event now = some after) :
      ∃ uplink downlink, after.Inv uplink downlink := by
    have all : uplink = Traced.taken event ++ uplink := by rw [nothing]; rfl
    refine serve_inv h inv.traced all ?_ inv.down
    intro next stepped runs
    rcases Bool.or_eq_true_iff.mp ok with empty | last
    · exact (inv.up (ServerSession.running_of_step stepped runs)).cut (List.isEmpty_iff.mp empty)
    · rw [ServerSession.over_of_isLast last stepped] at runs
      cases runs
  cases event with
  | frame result => cases h
  | sendShutdown value =>
    refine serve_inv h inv.traced rfl ?_ inv.down
    intro next stepped runs
    exact inv.up (ServerSession.running_of_step stepped runs)
  | _ => exact goes ok rfl h

theorem step_inv (w : Wired) (event : WiredEvent) (after : Wired) (inv : ∃ uplink downlink, w.Inv uplink downlink)
    (ok : w.Undisturbed config event = true) (h : w.step config event = some after) :
    ∃ uplink downlink, after.Inv uplink downlink := by
  obtain ⟨uplink, downlink, inv⟩ := inv
  cases event with
  | arriveUp n =>
    cases h
    exact ⟨uplink, downlink, inv.traced, fun runs => (inv.up runs).arrive n, inv.down⟩
  | arriveDown n =>
    cases h
    exact ⟨uplink, downlink, inv.traced, inv.up, fun alive => (inv.down alive).arrive n⟩
  | openRequest cmd atyp addr port =>
    refine ask_inv (by simp) (by simp) h (fun _ => Traced.openRequest_inv inv.traced) inv.up ?_
    intro next stepped alive _
    exact inv.down alive
  | firstPacket data =>
    refine ask_inv (by simp) (by simp) h (fun _ => Traced.firstPacket_inv inv.traced) inv.up ?_
    intro next stepped alive _
    exact inv.down alive
  | inbound read =>
    refine ask_inv (by simp) (by simp) h (fun _ => Traced.inbound_inv inv.traced) inv.up ?_
    intro next stepped alive goes
    cases read with
    | ok bytes => exact (inv.down alive).cut (List.isEmpty_iff.mp ok)
    | error err =>
      -- the client's loop ends, and nobody reads on
      simp only [ends, Pair.step] at stepped
      split at stepped
      · split at stepped
        · cases stepped
        · cases stepped
          cases goes
      · cases stepped
  | clientPoll => exact clientPoll_inv inv h
  | clientLost err => exact clientLost_inv inv h
  | serverPoll now => exact serverPoll_inv inv h
  | serverLost err now =>
    obtain ⟨-, h⟩ := Option.ite_none_right_eq_some.mp h
    refine serve_inv h inv.traced rfl ?_ inv.down
    intro next stepped runs
    rw [ServerSession.over_of_frame_error stepped] at runs
    cases runs
  | server event now => exact server_inv inv ok h

end Wired

/-- Whatever the order of events, and whether or not the two ends agree on where a request ends, if no loop goes on
after it has dropped bytes of a frame: what the target of a request gets comes from the application that made the
request, what the application gets comes from that target, in order and without gaps; and a request that another one
follows on the server was given to its target in full, one that another one follows on the client was answered in full.
What is missing of the newest is on its way, as long as there is somebody to take it. -/
theorem requests_isolated (config : LoopConfig) (idleAt : Nat) (events : List WiredEvent) (w : Wired)
    (undisturbed : Guarded (Wired.step config) (fun w event => w.Undisturbed config event = true) (.start idleAt)
      events)
    (h : run (Wired.step config) (.start idleAt) events = some w) :
    Isolated w.asked w.served ∧
    (w.server.phase.isOver = false → w.up.bytes = [] → asks w.asked = asks w.served) ∧
    (w.client.alive = true → w.down.bytes = [] →
      ∃ unserved shared, w.asked = unserved ++ shared ∧ (∀ d ∈ unserved, d.down = []) ∧
        downs shared = downs w.served) := by
  obtain ⟨uplink, downlink, inv⟩ : ∃ uplink downlink, w.Inv uplink downlink :=
    guarded_invariant Wired.step_inv ⟨[], [], Wired.start_inv idleAt⟩ undisturbed h
  obtain ⟨isolated, ups, downs⟩ := inv.traced.isolated
  refine ⟨isolated, ?_, ?_⟩
  · intro runs empty
    exact ups runs ((inv.up runs).eq_nil empty)
  · intro alive empty
    exact downs alive ((inv.down alive).eq_nil empty)

/-- The target closes first, and the next request finds the server in the old one. -/
def targetFirst : List WiredEvent :=
  [.openRequest 0x01 0x01 [127, 0, 0, 1] 80, .firstPacket (some [0x2a]), .arriveUp 100, .serverPoll 1,
   .server (.connected (.ok ())) 1, .serverPoll 1, .server (.target (.ok [0x2b])) 2, .server (.target (.ok [])) 2,
   .arriveDown 2, .clientPoll, .arriveDown 100, .clientPoll, .clientPoll,
   .openRequest 0x01 0x01 [127, 0, 0, 1] 443, .firstPacket (some [0x2c]), .arriveUp 100, .serverPoll 3,
   .arriveDown 100, .clientPoll]

theorem requests_isolated_target_first :
    ∃ w, run (Wired.step ⟨10, 100, 50⟩) (.start 50) targetFirst = some w ∧
      w.client = .discarded false ∧
      w.asked = [⟨⟨0x01, 0x01, [127, 0, 0, 1], 443⟩, [0x2c], []⟩, ⟨⟨0x01, 0x01, [127, 0, 0, 1], 80⟩, [0x2a], [0x2b]⟩] ∧
      w.served = [⟨⟨0x01, 0x01, [127, 0, 0, 1], 80⟩, [0x2a], [0x2b]⟩] ∧ Isolated w.asked w.served := by
  have evaluated : (run (Wired.step ⟨10, 100, 50⟩) (.start 50) targetFirst).map
      (fun w => (w.client, w.asked, w.served)) =
      some (.discarded false,
        [⟨⟨0x01, 0x01, [127, 0, 0, 1], 443⟩, [0x2c], []⟩, ⟨⟨0x01, 0x01, [127, 0, 0, 1], 80⟩, [0x2a], [0x2b]⟩],
        [⟨⟨0x01, 0x01, [127, 0, 0, 1], 80⟩, [0x2a], [0x2b]⟩]) := by decide +kernel
  obtain ⟨w, ran, facts⟩ := Option.map_eq_some_iff.mp evaluated
  simp only [Prod.mk.injEq] at facts
  exact ⟨w, ran, facts.1, facts.2.1, facts.2.2, (requests_isolated _ _ _ w (by decide +kernel) ran).1⟩

end NoisyShuttle.Shuttle
