import NoisyShuttle.Shuttle.Relay
import NoisyShuttle.Shuttle.Trojan

/-!
# The server's session loop

`SessionLoop` as a machine: it stops where the code awaits something other than a write, and one
step runs from there to the next such point. Writes of frames within a step succeed, fail or stall
as the input says.
-/

namespace NoisyShuttle.Shuttle
open Session
open Tunnel (IoError)

structure LoopConfig where
  maxRequests : Nat
  maxAge : Nat
  idleTimeout : Nat

/-- `SHUTDOWN_DRAIN_TIMEOUT`, in that unit. -/
def shutdownDrainTimeout : Nat := 30

structure SessionContext where
  state : SessionState
  requestCount : Nat
  createdAt : Nat
  lastActivity : Nat
  deriving DecidableEq

inductive WriteResult where
  | done
  | failed (err : IoError)
  | stalled
  deriving DecidableEq

def WriteResult.succeeds : List WriteResult → Bool
  | [] | .done :: _ => true
  | _ => false

/-- Where the loop waits. In `negotiating` the watch is dropped once it changed to false; `waiting`
and `relaying` carry the deadline of their timer; `stalled` is a write that does not return. -/
inductive Phase where
  | negotiating (watching : Bool)
  | waiting (idleAt : Nat)
  | connecting
  | relaying (relay : ServerRelay) (drainAt : Nat)
  | stalled
  | finished (result : Except RelayError Unit)
  deriving DecidableEq

def Phase.isOver : Phase → Bool
  | .finished _ => true
  | _ => false

/-- `shutdown` is the value of the watch channel, `touched` whether it was ever sent to, `changed`
whether the receiver in use has yet to see that. `writes` are the outcomes of the writes to come
(no more of them: they succeed), `sent` the frames written and `assigned` the values assigned to
`ctx.state` in the current step. -/
structure ServerSession where
  ctx : SessionContext
  phase : Phase
  shutdown : Bool
  touched : Bool
  changed : Bool
  writes : List WriteResult
  sent : List Frame
  assigned : List SessionState
  deriving DecidableEq

inductive LoopEvent where
  | frame (result : Except FrameError Frame)
  | sendShutdown (value : Bool)
  | shutdownChanged
  | idleSleep
  | connected (result : Except IoError Unit)
  | target (read : Except IoError Bytes)
  | drainSleep
  deriving DecidableEq

/-- An event, the time at it, the outcomes of the frame writes it leads to and that of a write to the
target. -/
structure LoopInput where
  event : LoopEvent
  now : Nat
  writes : List WriteResult
  targetWritten : Except IoError Unit
  deriving DecidableEq

def elapsedAtLeast (now before duration : Nat) : Bool := before ≤ now ∧ now - before ≥ duration

def expiredLimit (config : LoopConfig) (ctx : SessionContext) (now : Nat) : Option CloseReason :=
  if ctx.requestCount ≥ config.maxRequests then some .maxRequestsReached
  else if elapsedAtLeast now ctx.createdAt config.maxAge then some .maxAgeExceeded
  else if elapsedAtLeast now ctx.lastActivity config.idleTimeout then some .idleTimeout
  else none

namespace ServerSession

def setState (state : SessionState) (s : ServerSession) : ServerSession :=
  { s with ctx := { s.ctx with state := state }, assigned := s.assigned ++ [state] }

def finish (result : Except RelayError Unit) (s : ServerSession) : ServerSession := { s with phase := .finished result }

def writeFrame (frame : Frame) (s : ServerSession) : WriteResult × ServerSession :=
  match s.writes with
  | [] => (.done, { s with sent := s.sent ++ [frame] })
  | .done :: rest => (.done, { s with sent := s.sent ++ [frame], writes := rest })
  | outcome :: rest => (outcome, { s with writes := rest })

def finishWith : WriteResult × ServerSession → ServerSession
  | (.done, s) => s.finish (.ok ())
  | (.failed err, s) => s.finish (.error (.frame (.io err)))
  | (.stalled, s) => { s with phase := .stalled }

def close (reason : CloseReason) (s : ServerSession) : WriteResult × ServerSession :=
  match (s.setState .closing).writeFrame (.close (closeReasonCode reason)) with
  | (.done, s) => (.done, s.setState .closed)
  | (outcome, s) => (outcome, s)

def reset (reason : CloseReason) (s : ServerSession) : WriteResult × ServerSession :=
  (s.setState .poisoned).writeFrame (.reset (closeReasonCode reason))

def protocolError (s : ServerSession) : WriteResult × ServerSession := s.reset .protocolError

def gracefulShutdown (s : ServerSession) : WriteResult × ServerSession :=
  -- only the drain of an active session has a timeout
  match s.ctx.state with
  | .active =>
    match (s.setState .draining).close .shutdownDrain with
    | (.stalled, s) => s.reset .shutdownDrain
    | (outcome, s) => (outcome, s)
  | .closed | .poisoned => (.done, s)
  | _ => s.close .shutdownDrain

def loopHead (config : LoopConfig) (now : Nat) (s : ServerSession) : ServerSession :=
  if s.shutdown then finishWith s.gracefulShutdown
  else
    match expiredLimit config s.ctx now with
    | some reason => finishWith (s.close reason)
    | none => { s with phase := .waiting (now + config.idleTimeout) }

def serveLoop (config : LoopConfig) (now : Nat) (s : ServerSession) : ServerSession :=
  -- `serve_loop` clones the receiver anew
  if s.ctx.state = .closed ∨ s.ctx.state = .poisoned then s.finish (.ok ())
  else loopHead config now { s with changed := s.touched }

/-- `negotiate_frame`, and `serve_loop` when it returns. -/
def negotiateFrame (config : LoopConfig) (now : Nat) (frame : Except FrameError Frame) (s : ServerSession) :
    ServerSession :=
  match frame with
  | .ok (.clientHello version _) =>
    if version = protocolVersion then
      let s := s.setState .idle
      serveLoop config now { s with ctx := { s.ctx with lastActivity := now } }
    else finishWith (s.close .versionMismatch)
  | .ok _ => finishWith (s.reset .protocolError)
  | .error _ => finishWith s.protocolError

def relayFailed (s : ServerSession) : ServerSession := finishWith (s.reset .serverError)

def relayClosed (config : LoopConfig) (now : Nat) (s : ServerSession) : ServerSession :=
  -- the end of `handle_frame` after a relay, and the next iteration
  let s := s.setState .idle
  if s.shutdown then finishWith (s.close .shutdownDrain)
  else
    match expiredLimit config s.ctx now with
    | some reason => finishWith (s.close reason)
    | none => loopHead config now s

end ServerSession

inductive Destination where
  | v4 (octets : Bytes) (port : UInt16)
  | v6 (octets : Bytes) (port : UInt16)
  | domain (host : Bytes) (port : UInt16)
  deriving DecidableEq

def frameAddrToTrojanAddr (atyp : UInt8) (addr : Bytes) (port : UInt16) : Except RelayError Destination :=
  if atyp = 0x01 then
    if addr.length = 4 then .ok (.v4 addr port) else .error (.message "invalid ipv4 address length")
  else if atyp = 0x04 then
    if addr.length = 16 then .ok (.v6 addr port) else .error (.message "invalid ipv6 address length")
  else if atyp = 0x03 then
    if utf8 addr then .ok (.domain addr port) else .error (.message "invalid domain address encoding")
  else .error (.code "unsupported address type: " atyp)

def openDestination (cmd atyp : UInt8) (addr : Bytes) (port : UInt16) : Except RelayError Destination :=
  if cmd ≠ Cmd.connect.toU8 then .error (.code "unsupported reusable request command: " cmd)
  else frameAddrToTrojanAddr atyp addr port

namespace ServerSession

def handleFrame (config : LoopConfig) (now : Nat) (frame : Frame) (s : ServerSession) : ServerSession :=
  match frame with
  | .openRequest cmd atyp addr port =>
    let s := s.setState .active
    let s := { s with ctx := { s.ctx with requestCount := s.ctx.requestCount + 1 } }
    match openDestination cmd atyp addr port with
    | .error _ => s.relayFailed
    | .ok _ => { s with phase := .connecting }
  | .ping token =>
    match s.writeFrame (.pong token) with
    | (.done, s) => loopHead config now s
    | (outcome, s) => finishWith (outcome, s)
  | .close _ => finishWith (s.close .clientInitiated)
  | _ => finishWith (s.reset .protocolError)

def relayNext (config : LoopConfig) (now drainAt : Nat) (relay : ServerRelay) (s : ServerSession) : ServerSession :=
  if relay.bothEnded then s.relayClosed config now else { s with phase := .relaying relay drainAt }

def relayBranch (config : LoopConfig) (input : LoopInput) (drainAt : Nat) (branch : Branch ServerRelay)
    (s : ServerSession) : ServerSession :=
  match branch with
  | .send frame next =>
    match s.writeFrame frame with
    | (.done, s) => s.relayNext config input.now drainAt next
    | (.failed _, s) => s.relayFailed
    | (.stalled, s) => { s with phase := .stalled }
  | .deliver _ next =>
    match input.targetWritten with
    | .ok () => s.relayNext config input.now drainAt next
    | .error _ => s.relayFailed
  | .halfClose next | .proceed next => s.relayNext config input.now drainAt next
  | .finish _ => s.relayFailed

def negotiating (config : LoopConfig) (input : LoopInput) (watching : Bool) (s : ServerSession) :
    Option ServerSession :=
  match input.event with
  | .frame result => some (s.negotiateFrame config input.now result)
  | .shutdownChanged =>
    if watching ∧ s.changed then
      if s.shutdown then some (finishWith (s.close .shutdownDrain))
      else some { s with phase := .negotiating false, changed := false }
    else none
  | _ => none

def waiting (config : LoopConfig) (input : LoopInput) (idleAt : Nat) (s : ServerSession) : Option ServerSession :=
  match input.event with
  | .frame (.ok frame) =>
    some ({ s with ctx := { s.ctx with lastActivity := input.now } }.handleFrame config input.now frame)
  | .frame (.error _) => some (finishWith s.protocolError)
  | .shutdownChanged =>
    if s.changed then
      let s := { s with changed := false }
      if s.shutdown then some (finishWith s.gracefulShutdown) else some (s.loopHead config input.now)
    else none
  | .idleSleep => if input.now ≥ idleAt then some (finishWith (s.close .idleTimeout)) else none
  | _ => none

def connecting (input : LoopInput) (s : ServerSession) : Option ServerSession :=
  match input.event with
  | .connected (.ok ()) =>
    some { s with phase := .relaying (.start s.shutdown) (input.now + shutdownDrainTimeout) }
  | .connected (.error _) => some s.relayFailed
  | _ => none

def relaying (config : LoopConfig) (input : LoopInput) (relay : ServerRelay) (drainAt : Nat) (s : ServerSession) :
    Option ServerSession :=
  match input.event with
  | .frame result =>
    if relay.clientEnded then none else some (s.relayBranch config input drainAt (relay.frameRead result))
  | .target read =>
    if relay.targetEnded then none else some (s.relayBranch config input drainAt (relay.targetRead read))
  | .shutdownChanged =>
    if relay.draining ∨ ¬ s.changed then none
    else
      let drainAt := if s.shutdown then input.now + shutdownDrainTimeout else drainAt
      some ({ s with changed := false }.relayBranch config input drainAt (relay.shutdownChanged s.shutdown))
  | .drainSleep =>
    if relay.draining ∧ input.now ≥ drainAt then
      some (s.relayBranch config input drainAt ServerRelay.drainTimeout)
    else none
  | _ => none

def step (config : LoopConfig) (s : ServerSession) (input : LoopInput) : Option ServerSession :=
  let s := { s with writes := input.writes, sent := [], assigned := [] }
  match input.event, s.phase with
  | .sendShutdown value, _ => some { s with shutdown := value, touched := true, changed := true }
  | _, .negotiating watching => s.negotiating config input watching
  | _, .waiting idleAt => s.waiting config input idleAt
  | _, .connecting => s.connecting input
  | _, .relaying relay drainAt => s.relaying config input relay drainAt
  | _, .stalled | _, .finished _ => none

/-- Whether the event ends a request or brings `serve_loop` back to its head. -/
def concludes (s : ServerSession) : LoopEvent → Bool
  | .frame (.ok (.endRequest _)) =>
    match s.phase with
    | .relaying relay _ => relay.targetEnded
    | _ => false
  | .target (.ok []) =>
    match s.phase with
    | .relaying relay _ => relay.clientEnded
    | _ => false
  | .shutdownChanged =>
    match s.phase with
    | .waiting _ => true
    | _ => false
  | _ => false

/-- The event does not shut the server down, is no idle timeout, and where the loop looks at the limits
none has expired. -/
def lasts (config : LoopConfig) (now : Nat) (s : ServerSession) (event : LoopEvent) : Bool :=
  match event with
  | .sendShutdown value => !value
  | .idleSleep => false
  | event => !s.concludes event || (expiredLimit config s.ctx now).isNone

/-- Whether the loop does not go on after the event. -/
def isLast (config : LoopConfig) (now : Nat) (s : ServerSession) (event : LoopEvent) : Bool :=
  match s.step config ⟨event, now, [], .ok ()⟩ with
  | some next => next.phase.isOver
  | none => true

/-- The context of `run_with_stream_and_first_frame`, at its first await. -/
def start (now : Nat) (shutdown : Bool) : ServerSession :=
  ⟨⟨.handshaking, 0, now, now⟩, .negotiating true, shutdown, false, false, [], [], []⟩

variable {s : ServerSession}

theorem young_of_lasts {config : LoopConfig} {now : Nat} {event : LoopEvent} (lasts : s.lasts config now event = true)
    (concludes : s.concludes event = true) : expiredLimit config s.ctx now = none := by
  cases event with
  | sendShutdown value => cases concludes
  | idleSleep => cases concludes
  | _ => simpa [ServerSession.lasts, concludes] using lasts

theorem over_of_isLast {config : LoopConfig} {now : Nat} {event : LoopEvent} {next : ServerSession}
    (last : s.isLast config now event = true) (h : s.step config ⟨event, now, [], .ok ()⟩ = some next) :
    next.phase.isOver = true := by
  unfold isLast at last
  rw [h] at last
  exact last

theorem concludes_endRequest {relay : ServerRelay} {drainAt : Nat} (phase : s.phase = .relaying relay drainAt)
    (reason : UInt8) : s.concludes (.frame (.ok (.endRequest reason))) = relay.targetEnded := by
  unfold concludes
  dsimp only
  rw [phase]

theorem concludes_targetEnd {relay : ServerRelay} {drainAt : Nat} (phase : s.phase = .relaying relay drainAt) :
    s.concludes (.target (.ok [])) = relay.clientEnded := by
  unfold concludes
  dsimp only
  rw [phase]

theorem concludes_shutdownChanged {idleAt : Nat} (phase : s.phase = .waiting idleAt) :
    s.concludes .shutdownChanged = true := by
  unfold concludes
  dsimp only
  rw [phase]

/-- Where the loop looks at the limits: at the end of a relay, and when the watch wakes it. -/
theorem concludes_cases {event : LoopEvent} (h : s.concludes event = true) :
    ((∃ reason, event = .frame (.ok (.endRequest reason))) ∨ event = .target (.ok [])) ∧
        (∃ relay drainAt, s.phase = .relaying relay drainAt) ∨
      event = .shutdownChanged ∧ ∃ idleAt, s.phase = .waiting idleAt := by
  rcases event with (err | frame) | value | _ | _ | result | (err | (_ | ⟨byte, more⟩)) | _
  case frame.ok =>
    cases frame with
    | endRequest reason =>
      refine .inl ⟨.inl ⟨reason, rfl⟩, ?_⟩
      unfold concludes at h
      dsimp only at h
      split at h
      · next relay drainAt phase => exact ⟨relay, drainAt, phase⟩
      · cases h
    | _ => cases h
  case target.ok.nil =>
    refine .inl ⟨.inr rfl, ?_⟩
    unfold concludes at h
    dsimp only at h
    split at h
    · next relay drainAt phase => exact ⟨relay, drainAt, phase⟩
    · cases h
  case shutdownChanged =>
    refine .inr ⟨rfl, ?_⟩
    unfold concludes at h
    dsimp only at h
    split at h
    · next idleAt phase => exact ⟨idleAt, phase⟩
    · cases h
  all_goals cases h

/-- The session as a step begins it. -/
def begin (input : LoopInput) (s : ServerSession) : ServerSession :=
  { s with writes := input.writes, sent := [], assigned := [] }

theorem step_cases {config : LoopConfig} {input : LoopInput} {next : ServerSession}
    (h : s.step config input = some next) :
    (∃ value, input.event = .sendShutdown value ∧
      next = { s.begin input with shutdown := value, touched := true, changed := true }) ∨
    (∃ watching, s.phase = .negotiating watching ∧ (s.begin input).negotiating config input watching = some next) ∨
    (∃ idleAt, s.phase = .waiting idleAt ∧ (s.begin input).waiting config input idleAt = some next) ∨
    (s.phase = .connecting ∧ (s.begin input).connecting input = some next) ∨
    (∃ relay drainAt, s.phase = .relaying relay drainAt ∧
      (s.begin input).relaying config input relay drainAt = some next) := by
  unfold step at h
  dsimp only at h
  split at h
  · rename_i value event
    exact .inl ⟨value, event, (Option.some.inj h).symm⟩
  · exact .inr (.inl ⟨_, by assumption, h⟩)
  · exact .inr (.inr (.inl ⟨_, by assumption, h⟩))
  · exact .inr (.inr (.inr (.inl ⟨by assumption, h⟩)))
  · exact .inr (.inr (.inr (.inr ⟨_, _, by assumption, h⟩)))
  · cases h
  · cases h

theorem running_of_step {config : LoopConfig} {input : LoopInput} {next : ServerSession}
    (h : s.step config input = some next) (runs : next.phase.isOver = false) : s.phase.isOver = false := by
  rcases step_cases h with ⟨value, sends, rfl⟩ | ⟨watching, phase, -⟩ | ⟨idleAt, phase, -⟩ | ⟨phase, -⟩ |
    ⟨relay, drainAt, phase, -⟩
  · exact runs
  all_goals
    rw [phase]
    rfl

theorem writeFrame_sends (frame : Frame) :
    (s.writeFrame frame).2.sent = s.sent ++ if WriteResult.succeeds s.writes then [frame] else [] := by
  unfold writeFrame
  cases s.writes with
  | nil => rfl
  | cons first rest =>
    cases first with
    | done => rfl
    | failed err => exact (List.append_nil _).symm
    | stalled => exact (List.append_nil _).symm

theorem writeFrame_ctx (frame : Frame) : (s.writeFrame frame).2.ctx = s.ctx := by
  unfold writeFrame
  split <;> rfl

theorem close_sends (reason : CloseReason) :
    (s.close reason).2.sent =
      s.sent ++ if WriteResult.succeeds s.writes then [.close (closeReasonCode reason)] else [] := by
  have written := writeFrame_sends (s := s.setState .closing) (.close (closeReasonCode reason))
  unfold close
  split
  · next done =>
    rw [done] at written
    exact written
  · next undone =>
    rw [undone] at written
    exact written

theorem gracefulShutdown_idle (idle : s.ctx.state = .idle) : s.gracefulShutdown = s.close .shutdownDrain := by
  unfold gracefulShutdown
  rw [idle]

theorem serveLoop_idle (config : LoopConfig) (now : Nat) (idle : s.ctx.state = .idle) :
    s.serveLoop config now = loopHead config now { s with changed := s.touched } := by
  unfold serveLoop
  rw [idle, if_neg (by decide)]

/-! ## When every write succeeds -/

theorem writeFrame_nil (h : s.writes = []) (frame : Frame) :
    s.writeFrame frame = (.done, { s with sent := s.sent ++ [frame] }) := by
  unfold writeFrame
  rw [h]

theorem relayFailed_nil (h : s.writes = []) :
    s.relayFailed = { s.setState .poisoned with
      phase := .finished (.ok ()), sent := s.sent ++ [.reset (closeReasonCode .serverError)] } := by
  have poisoned : (s.setState .poisoned).writes = [] := h
  unfold relayFailed reset
  rw [writeFrame_nil poisoned]
  rfl

/-- The loop goes on to wait unless it is shut down or a limit has expired. -/
theorem loopHead_waits (config : LoopConfig) (now : Nat) (up : s.shutdown = false)
    (young : expiredLimit config s.ctx now = none) :
    s.loopHead config now = { s with phase := .waiting (now + config.idleTimeout) } := by
  unfold loopHead
  rw [up, if_neg Bool.false_ne_true, young]

theorem relayClosed_waits (config : LoopConfig) (now : Nat) (up : s.shutdown = false)
    (young : expiredLimit config s.ctx now = none) :
    s.relayClosed config now = { s.setState .idle with phase := .waiting (now + config.idleTimeout) } := by
  have idle : (s.setState .idle).shutdown = false := up
  -- no limit looks at the state
  have still : expiredLimit config (s.setState .idle).ctx now = none := young
  have down : ¬ (s.setState .idle).shutdown = true := by simp [idle]
  unfold relayClosed
  dsimp only
  rw [if_neg down, still]
  exact loopHead_waits config now idle still

theorem relayNext_running {relay : ServerRelay} (running : relay.bothEnded = false) (config : LoopConfig)
    (now drainAt : Nat) : s.relayNext config now drainAt relay = { s with phase := .relaying relay drainAt } := by
  unfold relayNext
  rw [running, if_neg Bool.false_ne_true]

theorem relayNext_ended {relay : ServerRelay} (ended : relay.bothEnded = true) (config : LoopConfig)
    (now drainAt : Nat) : s.relayNext config now drainAt relay = s.relayClosed config now := by
  unfold relayNext
  rw [ended, if_pos rfl]

/-- A step that leads to `phase` and writes `frames`. -/
def Goes (s next : ServerSession) (phase : Phase) (frames : List Frame) : Prop :=
  next.shutdown = s.shutdown ∧ next.phase = phase ∧ next.sent = frames

section
variable {config : LoopConfig} {now drainAt : Nat} {relay : ServerRelay} {next : ServerSession}

theorem relayFailed_goes (writes : s.writes = []) (fresh : s.sent = []) :
    s.Goes s.relayFailed (.finished (.ok ())) [.reset (closeReasonCode .serverError)] := by
  rw [relayFailed_nil writes, fresh]
  exact ⟨rfl, rfl, rfl⟩

theorem relayNext_goes (running : relay.bothEnded = false) :
    s.Goes (s.relayNext config now drainAt relay) (.relaying relay drainAt) s.sent := by
  rw [relayNext_running running]
  exact ⟨rfl, rfl, rfl⟩

theorem relayNext_goes_waiting (ended : relay.bothEnded = true) (up : s.shutdown = false)
    (young : expiredLimit config s.ctx now = none) :
    ∃ idleAt, s.Goes (s.relayNext config now drainAt relay) (.waiting idleAt) s.sent := by
  rw [relayNext_ended ended, relayClosed_waits config now up young]
  exact ⟨_, rfl, rfl, rfl⟩

theorem waiting_openRequest {cmd atyp : UInt8} {addr : Bytes} {port : UInt16} {idleAt : Nat}
    (phase : s.phase = .waiting idleAt)
    (h : s.step config ⟨.frame (.ok (.openRequest cmd atyp addr port)), now, [], .ok ()⟩ = some next) :
    s.Goes next .connecting [] ∨ s.Goes next (.finished (.ok ())) [.reset (closeReasonCode .serverError)] := by
  simp only [step, phase, waiting, handleFrame, Option.some.injEq] at h
  split at h
  · subst h
    exact .inr (relayFailed_goes rfl rfl)
  · subst h
    exact .inl ⟨rfl, rfl, rfl⟩

theorem waiting_shutdownChanged {idleAt : Nat} (phase : s.phase = .waiting idleAt) (up : s.shutdown = false)
    (young : expiredLimit config s.ctx now = none)
    (h : s.step config ⟨.shutdownChanged, now, [], .ok ()⟩ = some next) :
    ∃ idleAt, s.Goes next (.waiting idleAt) [] := by
  simp only [step, phase, waiting] at h
  split at h
  · rw [up, if_neg Bool.false_ne_true, Option.some.injEq] at h
    subst h
    rw [loopHead_waits config now]
    · exact ⟨_, up.symm, rfl, rfl⟩
    · rfl
    · exact young
  · cases h

theorem connecting_ok (phase : s.phase = .connecting)
    (h : s.step config ⟨.connected (.ok ()), now, [], .ok ()⟩ = some next) :
    s.Goes next (.relaying (.start s.shutdown) (now + shutdownDrainTimeout)) [] := by
  simp only [step, phase, connecting, Option.some.injEq] at h
  subst h
  exact ⟨rfl, rfl, rfl⟩

theorem connecting_error {err : IoError} (phase : s.phase = .connecting)
    (h : s.step config ⟨.connected (.error err), now, [], .ok ()⟩ = some next) :
    s.Goes next (.finished (.ok ())) [.reset (closeReasonCode .serverError)] := by
  simp only [step, phase, connecting, Option.some.injEq] at h
  subst h
  exact relayFailed_goes rfl rfl

theorem relaying_data {bytes : Bytes} (phase : s.phase = .relaying relay drainAt) (notEnded : relay.clientEnded = false)
    (h : s.step config ⟨.frame (.ok (.data bytes)), now, [], .ok ()⟩ = some next) :
    s.Goes next (.relaying { relay with tx := relay.tx + bytes.length } drainAt) [] := by
  simp only [step, phase, relaying, notEnded, Bool.false_eq_true, if_false, Option.some.injEq] at h
  subst h
  exact relayNext_goes (by simp [ServerRelay.bothEnded, notEnded])

theorem relaying_endRequest {reason : UInt8} (phase : s.phase = .relaying relay drainAt)
    (notEnded : relay.clientEnded = false) (open_ : relay.targetEnded = false)
    (h : s.step config ⟨.frame (.ok (.endRequest reason)), now, [], .ok ()⟩ = some next) :
    s.Goes next (.relaying { relay with clientEnded := true } drainAt) [] := by
  simp only [step, phase, relaying, notEnded, Bool.false_eq_true, if_false, Option.some.injEq] at h
  subst h
  exact relayNext_goes (by simp [ServerRelay.bothEnded, open_])

theorem relaying_endRequest_last {reason : UInt8} (phase : s.phase = .relaying relay drainAt)
    (notEnded : relay.clientEnded = false) (ended : relay.targetEnded = true) (up : s.shutdown = false)
    (young : expiredLimit config s.ctx now = none)
    (h : s.step config ⟨.frame (.ok (.endRequest reason)), now, [], .ok ()⟩ = some next) :
    ∃ idleAt, s.Goes next (.waiting idleAt) [] := by
  simp only [step, phase, relaying, notEnded, Bool.false_eq_true, if_false, Option.some.injEq] at h
  subst h
  exact relayNext_goes_waiting (by simp [ServerRelay.bothEnded, ended]) up young

theorem relaying_target {read : Except IoError Bytes} (phase : s.phase = .relaying relay drainAt)
    (notEnded : relay.targetEnded = false) (h : s.step config ⟨.target read, now, [], .ok ()⟩ = some next) :
    next = { s with phase := .relaying relay drainAt, writes := [], sent := [], assigned := [] }.relayBranch config
      ⟨.target read, now, [], .ok ()⟩ drainAt (relay.targetRead read) := by
  simp only [step, phase, relaying, notEnded, Bool.false_eq_true, if_false, Option.some.injEq] at h
  exact h.symm

theorem relaying_target_error {err : IoError} (phase : s.phase = .relaying relay drainAt)
    (notEnded : relay.targetEnded = false) (h : s.step config ⟨.target (.error err), now, [], .ok ()⟩ = some next) :
    s.Goes next (.finished (.ok ())) [.reset (closeReasonCode .serverError)] := by
  rw [relaying_target phase notEnded h]
  exact relayFailed_goes rfl rfl

theorem relaying_target_data {byte : UInt8} {more : Bytes} (phase : s.phase = .relaying relay drainAt)
    (notEnded : relay.targetEnded = false)
    (h : s.step config ⟨.target (.ok (byte :: more)), now, [], .ok ()⟩ = some next) :
    s.Goes next (.relaying { relay with rx := relay.rx + (byte :: more).length } drainAt) [.data (byte :: more)] := by
  rw [relaying_target phase notEnded h]
  exact relayNext_goes (by simp [ServerRelay.bothEnded, notEnded])

theorem relaying_target_end (phase : s.phase = .relaying relay drainAt) (notEnded : relay.targetEnded = false)
    (open_ : relay.clientEnded = false) (h : s.step config ⟨.target (.ok []), now, [], .ok ()⟩ = some next) :
    s.Goes next (.relaying { relay with targetEnded := true } drainAt) [.endRequest endRequestOk] := by
  rw [relaying_target phase notEnded h]
  exact relayNext_goes (by simp [ServerRelay.bothEnded, open_])

theorem relaying_target_end_last (phase : s.phase = .relaying relay drainAt) (notEnded : relay.targetEnded = false)
    (ended : relay.clientEnded = true) (up : s.shutdown = false) (young : expiredLimit config s.ctx now = none)
    (h : s.step config ⟨.target (.ok []), now, [], .ok ()⟩ = some next) :
    ∃ idleAt, s.Goes next (.waiting idleAt) [.endRequest endRequestOk] := by
  rw [relaying_target phase notEnded h]
  exact relayNext_goes_waiting (by simp [ServerRelay.bothEnded, ended]) up young

theorem relaying_shutdownChanged (phase : s.phase = .relaying relay drainAt) (up : s.shutdown = false)
    (running : relay.bothEnded = false) (h : s.step config ⟨.shutdownChanged, now, [], .ok ()⟩ = some next) :
    s.Goes next (.relaying relay drainAt) [] := by
  simp only [step, phase, relaying] at h
  split at h
  · cases h
  · rw [Option.some.injEq] at h
    subst h
    simp only [up, ServerRelay.shutdownChanged, Bool.false_eq_true, if_false, relayBranch,
      relayNext_running running]
    exact ⟨up.symm, rfl, rfl⟩

end
end ServerSession
end NoisyShuttle.Shuttle
