import NoisyShuttle.Lib.Run
import NoisyShuttle.Shuttle.SessionLoop

/-!
# Request boundaries on a reused session

A client that serves one request after the other over a session, and the session loop at its other
end, with the frames in flight between them. Frames arrive whole and in order, and every write
succeeds.
-/

namespace NoisyShuttle.Shuttle
open Session
open Tunnel (IoError)

/-- The client between two calls of the pool: it holds no session, has sent an `OpenRequest`, is in the
loop of `relay_tcp_frames`, or has returned the session as unhealthy. -/
inductive ClientPhase where
  | pooled
  | opened
  | relaying (relay : ClientRelay)
  | discarded (closed : Bool)
  deriving DecidableEq

structure Pair where
  client : ClientPhase
  server : ServerSession
  uplink : List Frame
  downlink : List Frame
  deriving DecidableEq

/-- `firstPacket` carries the data that goes with the request, `none` when the header in `outbuf` is
cut; `server` are the events of the session loop other than frames. -/
inductive PairEvent where
  | openRequest (cmd atyp : UInt8) (addr : Bytes) (port : UInt16)
  | firstPacket (data : Option Bytes)
  | inbound (read : Except IoError Bytes)
  | clientFrame
  | serverFrame (now : Nat)
  | server (event : LoopEvent) (now : Nat)
  deriving DecidableEq

namespace Pair

def clientBranch (closed : Bool) (branch : Branch ClientRelay) (s : Pair) : Pair :=
  match branch with
  | .send frame next => { s with client := .relaying next, uplink := s.uplink ++ [frame] }
  | .deliver _ next | .halfClose next | .proceed next => { s with client := .relaying next }
  | .finish (.ok _) => { s with client := .pooled }
  | .finish (.error _) => { s with client := .discarded closed }

def serverStep (config : LoopConfig) (event : LoopEvent) (now : Nat) (s : Pair) : Option Pair :=
  (s.server.step config ⟨event, now, [], .ok ()⟩).map fun next =>
    { s with server := next, downlink := s.downlink ++ next.sent }

def step (config : LoopConfig) (s : Pair) : PairEvent → Option Pair
  | .openRequest cmd atyp addr port =>
    match s.client with
    | .pooled => some { s with client := .opened, uplink := s.uplink ++ [.openRequest cmd atyp addr port] }
    | _ => none
  | .firstPacket data =>
    match s.client, data with
    | .opened, none => some { s with client := .discarded false }
    | .opened, some [] => some { s with client := .relaying ⟨false, 0, 0⟩ }
    | .opened, some data =>
      some { s with client := .relaying ⟨false, data.length, 0⟩, uplink := s.uplink ++ [.data data] }
    | _, _ => none
  | .inbound read =>
    match s.client with
    | .relaying relay =>
      if relay.clientClosed then none else some (s.clientBranch relay.clientClosed (relay.inboundRead read))
    | _ => none
  | .clientFrame =>
    match s.client, s.downlink with
    | .relaying relay, frame :: rest =>
      some ({ s with downlink := rest }.clientBranch relay.clientClosed (relay.frameRead (.ok frame)))
    | _, _ => none
  | .serverFrame now =>
    match s.uplink with
    | frame :: rest => { s with uplink := rest }.serverStep config (.frame (.ok frame)) now
    | [] => none
  | .server event now =>
    match event with
    | .frame _ => none
    | event => s.serverStep config event now

def start (idleAt : Nat) : Pair :=
  ⟨.pooled, ⟨⟨.idle, 0, 0, 0⟩, .waiting idleAt, false, false, false, [], [], []⟩, [], []⟩

end Pair

/-- The client takes the server's `EndRequest` only after it has sent its own. -/
def EndsLast (s : Pair) : PairEvent → Bool
  | .clientFrame =>
    match s.client, s.downlink with
    | .relaying relay, .endRequest _ :: _ => relay.clientClosed
    | _, _ => true
  | _ => true

def StaysOpen (config : LoopConfig) (s : Pair) : PairEvent → Bool
  | .serverFrame now =>
    match s.uplink with
    | frame :: _ => s.server.lasts config now (.frame (.ok frame))
    | [] => true
  | .server event now => s.server.lasts config now event
  | _ => true

/-! ## What is in flight -/

def Datas (frames : List Frame) : Prop := ∀ f ∈ frames, ∃ bytes, f = .data bytes

def Flow (closed : Bool) (frames : List Frame) : Prop :=
  if closed then ∃ datas reason, Datas datas ∧ frames = datas ++ [.endRequest reason] else Datas frames

theorem Flow.nil : Flow false [] := by simp [Flow, Datas]

theorem Flow.data {frames : List Frame} (flow : Flow false frames) (bytes : Bytes) :
    Flow false (frames ++ [.data bytes]) := by
  intro f mem
  rcases List.mem_append.mp mem with mem | mem
  · exact flow f mem
  · exact ⟨bytes, List.mem_singleton.mp mem⟩

theorem Flow.ended {frames : List Frame} (flow : Flow false frames) (reason : UInt8) :
    Flow true (frames ++ [.endRequest reason]) := ⟨frames, reason, flow, rfl⟩

theorem Datas.cons {frame : Frame} {frames : List Frame} (datas : Datas (frame :: frames)) :
    (∃ bytes, frame = .data bytes) ∧ Datas frames :=
  List.forall_mem_cons.mp datas

theorem Flow.head {closed : Bool} {frame : Frame} {rest : List Frame} (flow : Flow closed (frame :: rest)) :
    (∃ bytes, frame = .data bytes ∧ Flow closed rest) ∨
      (∃ reason, frame = .endRequest reason ∧ closed = true ∧ rest = []) := by
  cases closed with
  | false =>
    obtain ⟨⟨bytes, same⟩, later⟩ := Datas.cons flow
    exact .inl ⟨bytes, same, later⟩
  | true =>
    obtain ⟨datas, reason, plain, whole⟩ := flow
    cases datas with
    | nil =>
      obtain ⟨rfl, rfl⟩ := List.cons.inj whole
      exact .inr ⟨reason, rfl, rfl, rfl⟩
    | cons first datas =>
      obtain ⟨rfl, rfl⟩ := List.cons.inj whole
      obtain ⟨⟨bytes, same⟩, later⟩ := Datas.cons plain
      exact .inl ⟨bytes, same, datas, reason, later, rfl⟩

def Within (frames : List Frame) : Prop := ∀ cmd atyp addr port, .openRequest cmd atyp addr port ∉ frames

theorem Datas.within {frames : List Frame} (datas : Datas frames) : Within frames := by
  intro cmd atyp addr port mem
  obtain ⟨bytes, same⟩ := datas _ mem
  cases same

theorem Flow.within {closed : Bool} {frames : List Frame} (flow : Flow closed frames) : Within frames := by
  cases closed with
  | false => exact Datas.within flow
  | true =>
    obtain ⟨datas, reason, plain, rfl⟩ := flow
    intro cmd atyp addr port mem
    rcases List.mem_append.mp mem with mem | mem
    · exact plain.within cmd atyp addr port mem
    · cases List.mem_singleton.mp mem

def ClientPhase.closed : ClientPhase → Option Bool
  | .pooled => none
  | .opened => some false
  | .relaying relay => some relay.clientClosed
  | .discarded closed => some closed

def ClientPhase.alive : ClientPhase → Bool
  | .discarded _ => false
  | _ => true

/-- What a server at a request boundary has before it: nothing, or the next request. -/
def Fresh (closed : Option Bool) (uplink : List Frame) : Prop :=
  match closed with
  | none => uplink = []
  | some closed => ∃ cmd atyp addr port rest, uplink = .openRequest cmd atyp addr port :: rest ∧ Flow closed rest

/-- The states of the two ends that fit together. Of the downlink nothing is known once the client has
discarded the session. -/
inductive Consistent : Option Bool → Bool → Phase → List Frame → List Frame → Prop where
  | idle {closed alive idleAt uplink downlink} :
      Fresh closed uplink → (alive = true → downlink = []) →
      Consistent closed alive (.waiting idleAt) uplink downlink
  | unread {alive idleAt downlink} :
      (alive = true → Flow true downlink) → Consistent (some true) alive (.waiting idleAt) [] downlink
  | connecting {closed alive uplink downlink} :
      Flow closed uplink → (alive = true → downlink = []) →
      Consistent (some closed) alive .connecting uplink downlink
  | current {closed alive relay drainAt uplink downlink} :
      relay.draining = false → relay.clientEnded = false → Flow closed uplink →
      (alive = true → Flow relay.targetEnded downlink) →
      Consistent (some closed) alive (.relaying relay drainAt) uplink downlink
  | heard {alive relay drainAt downlink} :
      relay.draining = false → relay.clientEnded = true → relay.targetEnded = false →
      (alive = true → Flow false downlink) →
      Consistent (some true) alive (.relaying relay drainAt) [] downlink
  | lagging {closed alive relay drainAt trailing uplink downlink} :
      relay.draining = false → relay.clientEnded = false → relay.targetEnded = true →
      Flow true trailing → Fresh closed uplink → (alive = true → downlink = []) →
      Consistent closed alive (.relaying relay drainAt) (trailing ++ uplink) downlink
  | finished {closed alive result uplink downlink} :
      Within uplink → (alive = true → ∃ datas reason, Datas datas ∧ downlink = datas ++ [.reset reason]) →
      Consistent (some closed) alive (.finished result) uplink downlink

def Pair.Inv (s : Pair) : Prop :=
  s.server.shutdown = false ∧
    Consistent s.client.closed s.client.alive s.server.phase s.uplink s.downlink

/-! ## Steps of the client -/

variable {closed : Option Bool} {alive : Bool} {phase : Phase} {uplink downlink : List Frame}

theorem Consistent.openRequest (h : Consistent none alive phase uplink downlink) (cmd atyp : UInt8) (addr : Bytes)
    (port : UInt16) : Consistent (some false) alive phase (uplink ++ [.openRequest cmd atyp addr port]) downlink := by
  have next {uplink : List Frame} (fresh : Fresh none uplink) :
      Fresh (some false) (uplink ++ [.openRequest cmd atyp addr port]) := by
    have empty : uplink = [] := fresh
    exact ⟨cmd, atyp, addr, port, [], by rw [empty]; rfl, Flow.nil⟩
  cases h with
  | idle fresh empty => exact .idle (next fresh) empty
  | lagging draining notEnded ended trailing fresh empty =>
    rw [List.append_assoc]
    exact .lagging draining notEnded ended trailing (next fresh) empty

theorem Consistent.send {after : Bool} {frame : Frame} (h : Consistent (some false) alive phase uplink downlink)
    (flow : ∀ frames, Flow false frames → Flow after (frames ++ [frame])) :
    Consistent (some after) alive phase (uplink ++ [frame]) downlink := by
  have next {uplink : List Frame} (fresh : Fresh (some false) uplink) :
      Fresh (some after) (uplink ++ [frame]) := by
    obtain ⟨cmd, atyp, addr, port, rest, whole, flowing⟩ := fresh
    exact ⟨cmd, atyp, addr, port, rest ++ [frame], by rw [whole]; rfl, flow rest flowing⟩
  cases h with
  | idle fresh empty => exact .idle (next fresh) empty
  | connecting flowing empty => exact .connecting (flow _ flowing) empty
  | current draining notEnded flowing down => exact .current draining notEnded (flow _ flowing) down
  | lagging draining notEnded ended trailing fresh empty =>
    rw [List.append_assoc]
    exact .lagging draining notEnded ended trailing (next fresh) empty
  | finished within down =>
    refine .finished (fun cmd atyp addr port mem => ?_) down
    rcases List.mem_append.mp mem with mem | mem
    · exact within cmd atyp addr port mem
    · exact (flow [] Flow.nil).within cmd atyp addr port mem

theorem Consistent.discard (h : Consistent closed alive phase uplink downlink) (after : List Frame) :
    Consistent closed false phase uplink after := by
  cases h with
  | idle fresh _ => exact .idle fresh (by simp)
  | unread _ => exact .unread (by simp)
  | connecting flowing _ => exact .connecting flowing (by simp)
  | current draining notEnded flowing _ => exact .current draining notEnded flowing (by simp)
  | heard draining ended notEnded _ => exact .heard draining ended notEnded (by simp)
  | lagging draining notEnded ended trailing fresh _ => exact .lagging draining notEnded ended trailing fresh (by simp)
  | finished within _ => exact .finished within (by simp)

/-- What the client can find at the front of the downlink, and what is left when it has taken it. -/
theorem Consistent.receive {frame : Frame} (h : Consistent closed true phase uplink (frame :: downlink)) :
    (∃ bytes, frame = .data bytes ∧ Consistent closed true phase uplink downlink) ∨
    (∃ reason, frame = .endRequest reason ∧ (closed = some true → Consistent none true phase uplink downlink)) ∨
    (∃ reason, frame = .reset reason) := by
  generalize down : frame :: downlink = all at h
  cases h with
  | idle _ empty => cases down.trans (empty rfl)
  | unread flow =>
    subst down
    rcases (flow rfl).head with ⟨bytes, same, flow⟩ | ⟨reason, same, -, empty⟩
    · exact .inl ⟨bytes, same, .unread fun _ => flow⟩
    · exact .inr (.inl ⟨reason, same, fun _ => .idle rfl fun _ => empty⟩)
  | connecting _ empty => cases down.trans (empty rfl)
  | current draining notEnded flowing flow =>
    subst down
    rcases (flow rfl).head with ⟨bytes, same, flow⟩ | ⟨reason, same, ended, empty⟩
    · exact .inl ⟨bytes, same, .current draining notEnded flowing fun _ => flow⟩
    · refine .inr (.inl ⟨reason, same, fun closed => ?_⟩)
      -- the server has yet to read the rest of the request, up to its end
      cases closed
      rw [← List.append_nil uplink]
      exact .lagging draining notEnded ended flowing rfl fun _ => empty
  | heard draining ended notEnded flow =>
    subst down
    rcases (flow rfl).head with ⟨bytes, same, flow⟩ | ⟨reason, -, closed, -⟩
    · exact .inl ⟨bytes, same, .heard draining ended notEnded fun _ => flow⟩
    · cases closed
  | lagging _ _ _ _ _ empty => cases down.trans (empty rfl)
  | finished within resets =>
    obtain ⟨datas, reason, plain, whole⟩ := resets rfl
    rw [← down] at whole
    cases datas with
    | nil => exact .inr (.inr ⟨reason, (List.cons.inj whole).1⟩)
    | cons first datas =>
      obtain ⟨rfl, rfl⟩ := List.cons.inj whole
      obtain ⟨⟨bytes, same⟩, later⟩ := Datas.cons plain
      exact .inl ⟨bytes, same, .finished within fun _ => ⟨datas, reason, later, rfl⟩⟩

/-! ## Steps of the server -/

section
variable {config : LoopConfig} {now : Nat} {s next : ServerSession}

theorem Consistent.goes {frames : List Frame} (goes : s.Goes next phase frames) (up : s.shutdown = false)
    (consistent : Consistent closed alive phase uplink (downlink ++ frames)) :
    next.shutdown = false ∧ Consistent closed alive next.phase uplink (downlink ++ next.sent) := by
  obtain ⟨shutdown, phase, sent⟩ := goes
  rw [shutdown, phase, sent]
  exact ⟨up, consistent⟩

/-- A step of the server that writes nothing. -/
theorem Consistent.goes_quietly (goes : s.Goes next phase []) (up : s.shutdown = false)
    (consistent : Consistent closed alive phase uplink downlink) :
    next.shutdown = false ∧ Consistent closed alive next.phase uplink (downlink ++ next.sent) := by
  rw [← List.append_nil downlink] at consistent
  exact Consistent.goes goes up consistent

/-- A relay that fails leaves a `Reset` behind the data. -/
theorem Consistent.fails {c : Bool} {reason : UInt8}
    (goes : s.Goes next (.finished (.ok ())) [.reset reason]) (up : s.shutdown = false)
    (within : Within uplink) (down : alive = true → Flow false downlink) :
    next.shutdown = false ∧ Consistent (some c) alive next.phase uplink (downlink ++ next.sent) :=
  Consistent.goes goes up (.finished within fun alive => ⟨downlink, reason, down alive, rfl⟩)

/-- A frame of the request the server is in. -/
theorem current_frame {c : Bool} {relay : ServerRelay} {drainAt : Nat} {frame : Frame}
    (phase : s.phase = .relaying relay drainAt) (up : s.shutdown = false) (draining : relay.draining = false)
    (notEnded : relay.clientEnded = false) (flow : Flow c (frame :: uplink))
    (down : alive = true → Flow relay.targetEnded downlink)
    (h : s.step config ⟨.frame (.ok frame), now, [], .ok ()⟩ = some next)
    (lasts : s.lasts config now (.frame (.ok frame)) = true) :
    next.shutdown = false ∧ Consistent (some c) alive next.phase uplink (downlink ++ next.sent) := by
  rcases flow.head with ⟨bytes, rfl, later⟩ | ⟨reason, rfl, rfl, rfl⟩
  · exact Consistent.goes_quietly (s.relaying_data phase notEnded h) up (.current draining notEnded later down)
  · cases ended : relay.targetEnded with
    | true =>
      rw [ended] at down
      have young := ServerSession.young_of_lasts lasts ((s.concludes_endRequest phase reason).trans ended)
      obtain ⟨idleAt, goes⟩ := s.relaying_endRequest_last phase notEnded ended up young h
      exact Consistent.goes_quietly goes up (.unread down)
    | false =>
      rw [ended] at down
      exact Consistent.goes_quietly (s.relaying_endRequest phase notEnded ended h) up
        (.heard draining rfl ended down)

/-- A frame of a request the client has long left. -/
theorem lagging_frame {relay : ServerRelay} {drainAt : Nat} {frame : Frame} {trailing rest : List Frame}
    (phase : s.phase = .relaying relay drainAt) (up : s.shutdown = false) (draining : relay.draining = false)
    (notEnded : relay.clientEnded = false) (ended : relay.targetEnded = true) (flow : Flow true (frame :: trailing))
    (fresh : Fresh closed rest) (empty : alive = true → downlink = [])
    (h : s.step config ⟨.frame (.ok frame), now, [], .ok ()⟩ = some next)
    (lasts : s.lasts config now (.frame (.ok frame)) = true) :
    next.shutdown = false ∧ Consistent closed alive next.phase (trailing ++ rest) (downlink ++ next.sent) := by
  rcases flow.head with ⟨bytes, rfl, later⟩ | ⟨reason, rfl, -, rfl⟩
  · exact Consistent.goes_quietly (s.relaying_data phase notEnded h) up
      (.lagging draining notEnded ended later fresh empty)
  · have young := ServerSession.young_of_lasts lasts ((s.concludes_endRequest phase reason).trans ended)
    obtain ⟨idleAt, goes⟩ := s.relaying_endRequest_last phase notEnded ended up young h
    exact Consistent.goes_quietly goes up (.idle fresh empty)

theorem serverFrame_consistent {frame : Frame} (up : s.shutdown = false)
    (consistent : Consistent closed alive s.phase (frame :: uplink) downlink)
    (h : s.step config ⟨.frame (.ok frame), now, [], .ok ()⟩ = some next)
    (lasts : s.lasts config now (.frame (.ok frame)) = true) :
    next.shutdown = false ∧ Consistent closed alive next.phase uplink (downlink ++ next.sent) := by
  generalize phase : s.phase = before at consistent
  generalize front : frame :: uplink = all at consistent
  cases consistent with
  | idle fresh empty =>
    cases closed with
    | none => cases front.trans fresh
    | some closed =>
      obtain ⟨cmd, atyp, addr, port, rest, whole, flow⟩ := fresh
      obtain ⟨rfl, rfl⟩ := List.cons.inj (front.trans whole)
      rcases s.waiting_openRequest phase h with goes | goes
      · exact Consistent.goes_quietly goes up (.connecting flow empty)
      · refine Consistent.fails goes up flow.within fun alive => ?_
        rw [empty alive]
        exact Flow.nil
  | unread _ => cases front
  | connecting _ _ => simp [ServerSession.step, phase, ServerSession.connecting] at h
  | current draining notEnded flow down =>
    subst front
    exact current_frame phase up draining notEnded flow down h lasts
  | heard _ _ _ _ => cases front
  | @lagging _ _ _ _ trailing rest _ draining notEnded ended flow fresh empty =>
    cases trailing with
    | nil => simp [Flow] at flow
    | cons first trailing =>
      obtain ⟨rfl, rfl⟩ := List.cons.inj front
      exact lagging_frame phase up draining notEnded ended flow fresh empty h lasts
  | finished _ _ => simp [ServerSession.step, phase] at h

theorem shutdownChanged_consistent (up : s.shutdown = false)
    (consistent : Consistent closed alive s.phase uplink downlink)
    (h : s.step config ⟨.shutdownChanged, now, [], .ok ()⟩ = some next)
    (lasts : s.lasts config now .shutdownChanged = true) :
    next.shutdown = false ∧ Consistent closed alive next.phase uplink (downlink ++ next.sent) := by
  -- the watch was sent a value, but not the one that shuts the server down
  have waits {idleAt : Nat} (phase : s.phase = .waiting idleAt) : ∃ idleAt, s.Goes next (.waiting idleAt) [] := by
    have young := ServerSession.young_of_lasts lasts (s.concludes_shutdownChanged phase)
    exact s.waiting_shutdownChanged phase up young h
  generalize phase : s.phase = before at consistent
  cases consistent with
  | idle fresh empty =>
    obtain ⟨idleAt, goes⟩ := waits phase
    exact Consistent.goes_quietly goes up (.idle fresh empty)
  | unread flow =>
    obtain ⟨idleAt, goes⟩ := waits phase
    exact Consistent.goes_quietly goes up (.unread flow)
  | connecting _ _ => simp [ServerSession.step, phase, ServerSession.connecting] at h
  | current draining notEnded flow down =>
    have goes := s.relaying_shutdownChanged phase up (by simp [ServerRelay.bothEnded, notEnded]) h
    exact Consistent.goes_quietly goes up (.current draining notEnded flow down)
  | heard draining ended notEnded down =>
    have goes := s.relaying_shutdownChanged phase up (by simp [ServerRelay.bothEnded, notEnded]) h
    exact Consistent.goes_quietly goes up (.heard draining ended notEnded down)
  | lagging draining notEnded ended trailing fresh empty =>
    have goes := s.relaying_shutdownChanged phase up (by simp [ServerRelay.bothEnded, notEnded]) h
    exact Consistent.goes_quietly goes up (.lagging draining notEnded ended trailing fresh empty)
  | finished _ _ => simp [ServerSession.step, phase] at h

theorem current_target {c : Bool} {relay : ServerRelay} {drainAt : Nat} {read : Except IoError Bytes}
    (phase : s.phase = .relaying relay drainAt) (up : s.shutdown = false) (draining : relay.draining = false)
    (notEnded : relay.clientEnded = false) (flow : Flow c uplink) (open_ : relay.targetEnded = false)
    (down : alive = true → Flow false downlink) (h : s.step config ⟨.target read, now, [], .ok ()⟩ = some next) :
    next.shutdown = false ∧ Consistent (some c) alive next.phase uplink (downlink ++ next.sent) := by
  rcases read with err | (_ | ⟨byte, more⟩)
  · exact Consistent.fails (s.relaying_target_error phase open_ h) up flow.within down
  · refine Consistent.goes (s.relaying_target_end phase open_ notEnded h) up ?_
    exact .current draining notEnded flow fun alive => (down alive).ended endRequestOk
  · refine Consistent.goes (s.relaying_target_data phase open_ h) up ?_
    refine .current draining notEnded flow fun alive => ?_
    exact open_.symm ▸ (down alive).data (byte :: more)

theorem heard_target {relay : ServerRelay} {drainAt : Nat} {read : Except IoError Bytes}
    (phase : s.phase = .relaying relay drainAt) (up : s.shutdown = false) (draining : relay.draining = false)
    (ended : relay.clientEnded = true) (open_ : relay.targetEnded = false)
    (down : alive = true → Flow false downlink) (h : s.step config ⟨.target read, now, [], .ok ()⟩ = some next)
    (lasts : s.lasts config now (.target read) = true) :
    next.shutdown = false ∧ Consistent (some true) alive next.phase [] (downlink ++ next.sent) := by
  rcases read with err | (_ | ⟨byte, more⟩)
  · exact Consistent.fails (s.relaying_target_error phase open_ h) up (by simp [Within]) down
  · have young := ServerSession.young_of_lasts lasts ((s.concludes_targetEnd phase).trans ended)
    obtain ⟨idleAt, goes⟩ := s.relaying_target_end_last phase open_ ended up young h
    exact Consistent.goes goes up (.unread fun alive => (down alive).ended endRequestOk)
  · refine Consistent.goes (s.relaying_target_data phase open_ h) up ?_
    exact .heard draining ended open_ fun alive => (down alive).data (byte :: more)

theorem target_consistent {read : Except IoError Bytes} (up : s.shutdown = false)
    (consistent : Consistent closed alive s.phase uplink downlink)
    (h : s.step config ⟨.target read, now, [], .ok ()⟩ = some next)
    (lasts : s.lasts config now (.target read) = true) :
    next.shutdown = false ∧ Consistent closed alive next.phase uplink (downlink ++ next.sent) := by
  generalize phase : s.phase = before at consistent
  cases consistent with
  | idle _ _ => simp [ServerSession.step, phase, ServerSession.waiting] at h
  | unread _ => simp [ServerSession.step, phase, ServerSession.waiting] at h
  | connecting _ _ => simp [ServerSession.step, phase, ServerSession.connecting] at h
  | @current _ _ relay _ _ _ draining notEnded flow down =>
    cases ended : relay.targetEnded with
    | true => simp [ServerSession.step, phase, ServerSession.relaying, ended] at h
    | false =>
      rw [ended] at down
      exact current_target phase up draining notEnded flow ended down h
  | heard draining ended notEnded down => exact heard_target phase up draining ended notEnded down h lasts
  | lagging _ _ ended _ _ _ => simp [ServerSession.step, phase, ServerSession.relaying, ended] at h
  | finished _ _ => simp [ServerSession.step, phase] at h

theorem connected_consistent {result : Except IoError Unit} (up : s.shutdown = false)
    (consistent : Consistent closed alive s.phase uplink downlink)
    (h : s.step config ⟨.connected result, now, [], .ok ()⟩ = some next) :
    next.shutdown = false ∧ Consistent closed alive next.phase uplink (downlink ++ next.sent) := by
  generalize phase : s.phase = before at consistent
  cases consistent with
  | connecting flow empty =>
    have down : alive = true → Flow false downlink := by
      intro alive
      rw [empty alive]
      exact Flow.nil
    cases result with
    | ok _ => exact Consistent.goes_quietly (s.connecting_ok phase h) up (.current up rfl flow down)
    | error err => exact Consistent.fails (s.connecting_error phase h) up flow.within down
  | _ => simp [ServerSession.step, phase, ServerSession.waiting, ServerSession.relaying] at h

theorem server_consistent {event : LoopEvent} (up : s.shutdown = false)
    (consistent : Consistent closed alive s.phase uplink downlink) (notFrame : ∀ result, event ≠ .frame result)
    (h : s.step config ⟨event, now, [], .ok ()⟩ = some next) (lasts : s.lasts config now event = true) :
    next.shutdown = false ∧ Consistent closed alive next.phase uplink (downlink ++ next.sent) := by
  cases event with
  | frame result => exact absurd rfl (notFrame result)
  | sendShutdown value =>
    cases value with
    | true => cases lasts
    | false =>
      cases h
      exact ⟨rfl, by simpa using consistent⟩
  | shutdownChanged => exact shutdownChanged_consistent up consistent h lasts
  | idleSleep => cases lasts
  | connected result => exact connected_consistent up consistent h
  | target read => exact target_consistent up consistent h lasts
  | drainSleep =>
    generalize phase : s.phase = before at consistent
    cases consistent with
    | current draining _ _ _ => simp [ServerSession.step, phase, ServerSession.relaying, draining] at h
    | heard draining _ _ _ => simp [ServerSession.step, phase, ServerSession.relaying, draining] at h
    | lagging draining _ _ _ _ _ => simp [ServerSession.step, phase, ServerSession.relaying, draining] at h
    | _ => simp [ServerSession.step, phase, ServerSession.waiting, ServerSession.connecting] at h

end

/-! ## Whole runs -/

theorem Pair.serverStep_inv {config : LoopConfig} {event : LoopEvent} {now : Nat} {s next : Pair}
    (h : s.serverStep config event now = some next)
    (server : ∀ after, s.server.step config ⟨event, now, [], .ok ()⟩ = some after →
      after.shutdown = false ∧
        Consistent s.client.closed s.client.alive after.phase s.uplink (s.downlink ++ after.sent)) :
    next.Inv := by
  obtain ⟨after, stepped, rfl⟩ := Option.map_eq_some_iff.mp h
  exact server after stepped

section
variable {config : LoopConfig} {s next : Pair}

theorem Pair.openRequest_inv {cmd atyp : UInt8} {addr : Bytes} {port : UInt16} (inv : s.Inv)
    (h : s.step config (.openRequest cmd atyp addr port) = some next) : next.Inv := by
  obtain ⟨up, consistent⟩ := inv
  simp only [Pair.step] at h
  split at h
  · next pooled =>
    cases h
    rw [pooled] at consistent
    exact ⟨up, consistent.openRequest cmd atyp addr port⟩
  · cases h

theorem Pair.firstPacket_inv {data : Option Bytes} (inv : s.Inv)
    (h : s.step config (.firstPacket data) = some next) : next.Inv := by
  obtain ⟨up, consistent⟩ := inv
  simp only [Pair.step] at h
  split at h
  · next opened =>
    cases h
    rw [opened] at consistent
    exact ⟨up, consistent.discard _⟩
  · next opened =>
    cases h
    rw [opened] at consistent
    exact ⟨up, consistent⟩
  · next opened =>
    cases h
    rw [opened] at consistent
    exact ⟨up, consistent.send fun _ flow => flow.data _⟩
  · cases h

theorem Pair.inbound_inv {read : Except IoError Bytes} (inv : s.Inv)
    (h : s.step config (.inbound read) = some next) : next.Inv := by
  obtain ⟨up, consistent⟩ := inv
  simp only [Pair.step] at h
  split at h
  · next relay relaying =>
    cases ended : relay.clientClosed with
    | true => simp [ended] at h
    | false =>
      rw [ended, if_neg Bool.false_ne_true, Option.some.injEq] at h
      subst h
      have consistent : Consistent (some false) true s.server.phase s.uplink s.downlink := by
        simpa [relaying, ClientPhase.closed, ClientPhase.alive, ended] using consistent
      rcases read with err | (_ | ⟨byte, more⟩)
      · exact ⟨up, consistent.discard _⟩
      · exact ⟨up, consistent.send fun _ flow => flow.ended _⟩
      · refine ⟨up, ?_⟩
        have sent := consistent.send fun _ flow => flow.data (byte :: more)
        simpa [Pair.clientBranch, ClientRelay.inboundRead, ClientPhase.closed, ClientPhase.alive, ended] using sent
  · cases h

theorem Pair.clientFrame_inv (inv : s.Inv) (last : EndsLast s .clientFrame = true)
    (h : s.step config .clientFrame = some next) : next.Inv := by
  obtain ⟨up, consistent⟩ := inv
  simp only [Pair.step] at h
  split at h
  · next relay frame rest relaying front =>
    cases h
    rw [relaying, front] at consistent
    rcases consistent.receive with ⟨bytes, rfl, later⟩ | ⟨reason, rfl, later⟩ | ⟨reason, rfl⟩
    · exact ⟨up, later⟩
    · have closed : relay.clientClosed = true := by simpa [EndsLast, relaying, front] using last
      exact ⟨up, later (congrArg some closed)⟩
    · exact ⟨up, consistent.discard _⟩
  · cases h

theorem Pair.serverFrame_inv {now : Nat} (inv : s.Inv) (stays : StaysOpen config s (.serverFrame now) = true)
    (h : s.step config (.serverFrame now) = some next) : next.Inv := by
  obtain ⟨up, consistent⟩ := inv
  simp only [Pair.step] at h
  split at h
  · next frame rest front =>
    rw [front] at consistent
    have lasts : s.server.lasts config now (.frame (.ok frame)) = true := by
      simpa only [StaysOpen, front] using stays
    exact Pair.serverStep_inv h fun after stepped => serverFrame_consistent up consistent stepped lasts
  · cases h

theorem Pair.step_inv {event : PairEvent} (inv : s.Inv) (last : EndsLast s event = true)
    (stays : StaysOpen config s event = true) (h : s.step config event = some next) : next.Inv := by
  cases event with
  | openRequest cmd atyp addr port => exact Pair.openRequest_inv inv h
  | firstPacket data => exact Pair.firstPacket_inv inv h
  | inbound read => exact Pair.inbound_inv inv h
  | clientFrame => exact Pair.clientFrame_inv inv last h
  | serverFrame now => exact Pair.serverFrame_inv inv stays h
  | server event now =>
    obtain ⟨up, consistent⟩ := inv
    simp only [Pair.step] at h
    split at h
    · cases h
    · next event notFrame =>
      exact Pair.serverStep_inv h fun after stepped => server_consistent up consistent notFrame stepped stays

end

theorem Pair.start_inv (idleAt : Nat) : (Pair.start idleAt).Inv := ⟨rfl, .idle rfl fun _ => rfl⟩

/-- The two ends agree on where requests begin and end: a client that holds no request leaves no frame
the server does not take, has the server waiting for the next request once it has taken them all, and an
`OpenRequest` is only ever before a server that waits for one. -/
def Pair.Agree (config : LoopConfig) (s : Pair) : Prop :=
  (s.client = .pooled → s.uplink ≠ [] → ∀ now, (s.step config (.serverFrame now)).isSome) ∧
  (s.client = .pooled → s.uplink = [] → ∃ idleAt, s.server.phase = .waiting idleAt) ∧
  (∀ cmd atyp addr port rest, s.uplink = .openRequest cmd atyp addr port :: rest →
    ∃ idleAt, s.server.phase = .waiting idleAt)

theorem Pair.Inv.takes {config : LoopConfig} {s : Pair} (inv : s.Inv) (pooled : s.client = .pooled)
    (more : s.uplink ≠ []) (now : Nat) : (s.step config (.serverFrame now)).isSome := by
  obtain ⟨client, server, uplink, downlink⟩ := s
  obtain ⟨-, consistent⟩ := inv
  cases pooled
  generalize phase : server.phase = phase at consistent
  cases consistent with
  | idle fresh _ => exact absurd fresh more
  | @lagging _ _ relay drainAt trailing _ _ _ notEnded _ _ _ _ =>
    simp only [Pair.step]
    split
    · simp [Pair.serverStep, ServerSession.step, phase, ServerSession.relaying, notEnded]
    · next empty => exact absurd empty more

theorem Pair.Inv.waits {s : Pair} (inv : s.Inv) (pooled : s.client = .pooled) (taken : s.uplink = []) :
    ∃ idleAt, s.server.phase = .waiting idleAt := by
  obtain ⟨client, server, uplink, downlink⟩ := s
  obtain ⟨-, consistent⟩ := inv
  cases pooled
  generalize phase : server.phase = phase at consistent
  cases consistent with
  | idle _ _ => exact ⟨_, rfl⟩
  | lagging _ _ _ trailing _ _ =>
    obtain ⟨datas, reason, -, rfl⟩ := trailing
    simp at taken

theorem Pair.Inv.opens {s : Pair} {cmd atyp : UInt8} {addr : Bytes} {port : UInt16} {rest : List Frame} (inv : s.Inv)
    (front : s.uplink = .openRequest cmd atyp addr port :: rest) : ∃ idleAt, s.server.phase = .waiting idleAt := by
  obtain ⟨client, server, uplink, downlink⟩ := s
  obtain ⟨-, consistent⟩ := inv
  have outside (within : Within uplink) : False := by
    have front : uplink = _ := front
    exact within cmd atyp addr port (front ▸ List.mem_cons_self)
  dsimp only at consistent
  generalize client.closed = closed, client.alive = alive, phase : server.phase = phase at consistent
  cases consistent with
  | idle _ _ => exact ⟨_, rfl⟩
  | unread _ => exact ⟨_, rfl⟩
  | connecting flow _ => exact (outside flow.within).elim
  | current _ _ flow _ => exact (outside flow.within).elim
  | heard _ _ _ _ => cases front
  | @lagging _ _ _ _ trailing _ _ _ _ _ flow _ _ =>
    -- the rest of the previous request is before it
    cases trailing with
    | nil => simp [Flow] at flow
    | cons first trailing =>
      cases (List.cons.inj front).1
      exact absurd List.mem_cons_self (flow.within cmd atyp addr port)
  | finished within _ => exact (outside within).elim

theorem Pair.Inv.agree {config : LoopConfig} {s : Pair} (inv : s.Inv) : s.Agree config :=
  ⟨inv.takes, inv.waits, fun _ _ _ _ _ front => inv.opens front⟩

/-- Whether the session loop is over after the event. -/
def Closes (config : LoopConfig) (s : Pair) (event : PairEvent) : Bool :=
  (s.step config event).all (·.server.phase.isOver)

theorem Pair.clientBranch_server (closed : Bool) (branch : Branch ClientRelay) (s : Pair) :
    (s.clientBranch closed branch).server = s.server := by
  cases branch with
  | finish result => cases result <;> rfl
  | _ => rfl

theorem Pair.step_server {config : LoopConfig} {s next : Pair} {event : PairEvent} (h : s.step config event = some next)
    (apart : ∀ now, event ≠ .serverFrame now) (own : ∀ other now, event ≠ .server other now) :
    next.server = s.server := by
  cases event with
  | openRequest cmd atyp addr port =>
    simp only [Pair.step] at h
    split at h <;> cases h
    rfl
  | firstPacket data =>
    simp only [Pair.step] at h
    split at h <;> cases h <;> rfl
  | inbound read =>
    simp only [Pair.step] at h
    split at h
    · split at h
      · cases h
      · rw [← Option.some.inj h]
        exact Pair.clientBranch_server ..
    · cases h
  | clientFrame =>
    simp only [Pair.step] at h
    split at h
    · rw [← Option.some.inj h]
      exact Pair.clientBranch_server ..
    · cases h
  | serverFrame now => exact absurd rfl (apart now)
  | server other now => exact absurd rfl (own other now)

/-- A session loop that is over stays so. -/
theorem Pair.serverStep_over {config : LoopConfig} {s next : Pair} {event : LoopEvent} {now : Nat}
    (h : s.serverStep config event now = some next) (gone : s.server.phase.isOver = true) :
    next.server.phase.isOver = true := by
  obtain ⟨after, stepped, rfl⟩ := Option.map_eq_some_iff.mp h
  cases runs : after.phase.isOver with
  | true => rfl
  | false =>
    rw [ServerSession.running_of_step stepped runs] at gone
    cases gone

theorem Pair.step_over {config : LoopConfig} {s next : Pair} {event : PairEvent}
    (gone : s.server.phase.isOver = true) (h : s.step config event = some next) :
    next.server.phase.isOver = true := by
  cases event with
  | serverFrame now =>
    simp only [Pair.step] at h
    split at h
    · exact Pair.serverStep_over h gone
    · cases h
  | server event now =>
    simp only [Pair.step] at h
    split at h
    · cases h
    · exact Pair.serverStep_over h gone
  | _ =>
    rw [Pair.step_server h (by simp) (by simp)]
    exact gone

/-- In a run that meets the conditions the two ends agree; the conditions need only be met by the steps after which
the session loop goes on, as long as it does. -/
theorem boundaries_agree (config : LoopConfig) (idleAt : Nat) (events : List PairEvent) (final : Pair)
    (h : run (Pair.step config) (.start idleAt) events = some final) :
    (Guarded (Pair.step config) (fun s event => EndsLast s event = true ∧ StaysOpen config s event = true)
      (.start idleAt) events → final.Agree config) ∧
    (Guarded (Pair.step config)
      (fun s event => EndsLast s event = true ∧ StaysOpen config s event = true ∨ Closes config s event = true)
      (.start idleAt) events → final.server.phase.isOver = false → final.Agree config) := by
  constructor
  · intro guarded
    have inv : final.Inv := by
      refine guarded_invariant (fun s event next inv okay stepped => ?_) (Pair.start_inv idleAt) guarded h
      exact Pair.step_inv inv okay.1 okay.2 stepped
    exact inv.agree
  · intro guarded runs
    have inv : final.server.phase.isOver = true ∨ final.Inv := by
      refine @guarded_invariant _ _ (Pair.step config) _ (fun s => s.server.phase.isOver = true ∨ s.Inv)
        (fun s event next inv okay stepped => ?_) _ _ _ (Or.inr (Pair.start_inv idleAt)) guarded h
      rcases inv with gone | inv
      · exact Or.inl (Pair.step_over gone stepped)
      · rcases okay with ⟨last, stays⟩ | closes
        · exact Or.inr (Pair.step_inv inv last stays stepped)
        · rw [Closes, stepped] at closes
          exact Or.inl closes
    rcases inv with gone | inv
    · rw [runs] at gone
      cases gone
    · exact inv.agree

def clientEndsFirst : List PairEvent :=
  [.openRequest 0x01 0x01 [127, 0, 0, 1] 80, .firstPacket (some [0x2a]), .serverFrame 1,
   .server (.connected (.ok ())) 1, .inbound (.ok []), .server (.target (.ok [0x2b])) 2, .server (.target (.ok [])) 2,
   .clientFrame, .clientFrame, .serverFrame 3, .serverFrame 3]

theorem boundaries_agree_client_first :
    ∃ final, run (Pair.step ⟨10, 100, 50⟩) (.start 50) clientEndsFirst = some final ∧
      final.client = .pooled ∧ final.uplink = [] ∧ final.Agree ⟨10, 100, 50⟩ := by
  have ran : (run (Pair.step ⟨10, 100, 50⟩) (.start 50) clientEndsFirst).map (fun s => (s.client, s.uplink)) =
      some (.pooled, []) := by decide +kernel
  obtain ⟨final, ran, shape⟩ := Option.map_eq_some_iff.mp ran
  obtain ⟨client, uplink⟩ := Prod.mk.inj shape
  exact ⟨final, ran, client, uplink, (boundaries_agree _ _ _ _ ran).1 (by decide +kernel)⟩

/-- The target closes first: the client breaks at the server's `EndRequest` and pools the session without
having sent its own, and the server takes the next `OpenRequest` for a frame of the old request. -/
theorem boundaries_disagree_target_first :
    ∃ pooled final : Pair,
      run (Pair.step ⟨10, 100, 50⟩) (.start 50)
        [.openRequest 0x01 0x01 [127, 0, 0, 1] 80, .firstPacket (some []), .serverFrame 1,
         .server (.connected (.ok ())) 1, .server (.target (.ok [])) 2, .clientFrame] = some pooled ∧
      pooled.client = .pooled ∧ pooled.uplink = [] ∧
      pooled.server.phase = .relaying ⟨false, true, false, 0, 0⟩ 31 ∧
      run (Pair.step ⟨10, 100, 50⟩) pooled [.openRequest 0x01 0x01 [127, 0, 0, 1] 80, .serverFrame 3] = some final ∧
      final.downlink = [.reset (closeReasonCode .serverError)] ∧ final.server.phase = .finished (.ok ()) := by
  refine ⟨⟨.pooled, ⟨⟨.active, 1, 0, 1⟩, .relaying ⟨false, true, false, 0, 0⟩ 31, false, false, false, [],
    [.endRequest 0], []⟩, [], []⟩, ⟨.opened, ⟨⟨.poisoned, 1, 0, 1⟩, .finished (.ok ()), false, false, false, [],
    [.reset (closeReasonCode .serverError)], [.poisoned]⟩, [], [.reset (closeReasonCode .serverError)]⟩, ?_⟩
  decide +kernel

end NoisyShuttle.Shuttle
