import NoisyShuttle.Lib.Run
import NoisyShuttle.Shuttle.SessionLoop

/-!
# The session loop against the declared life cycle

What a step assigns to `ctx.state`, for any outcome of its writes, held against
`SessionState::can_transition_to`.
-/

namespace NoisyShuttle.Shuttle
open Session
open Tunnel (IoError)

/-- Of the values assigned one after another, each that differs from the one before is a declared
transition. -/
def conforms : SessionState → List SessionState → Bool
  | _, [] => true
  | state, target :: rest => (state = target || state.canTransitionTo target) && conforms target rest

namespace ServerSession

/-- The steps that leave the declared life cycle: a session that is closed before it is idle, a request
that is opened, and one that ends. -/
def irregular (s : ServerSession) (input : LoopInput) : Bool :=
  match s.phase, input.event with
  | .negotiating _, .frame (.ok (.clientHello version _)) => version ≠ protocolVersion
  | .negotiating _, .shutdownChanged => s.shutdown
  | .waiting _, .frame (.ok (.openRequest _ _ _ _)) => true
  | .relaying relay _, .frame (.ok (.endRequest _)) => relay.targetEnded
  | .relaying relay _, .target (.ok []) => relay.clientEnded && WriteResult.succeeds input.writes
  | _, _ => false

/-- The OpenRequest frames that `serve_loop` hands to `handle_frame`. -/
def opens (s : ServerSession) (input : LoopInput) : Nat :=
  match s.phase, input.event with
  | .waiting _, .frame (.ok (.openRequest _ _ _ _)) => 1
  | _, _ => 0

end ServerSession

def LoopEvent.requests : LoopEvent → Bool
  | .frame (.ok (.openRequest _ _ _ _)) => true
  | _ => false

namespace ServerSession

/-- The state that belongs to the phase. -/
def Placed (s : ServerSession) : Prop :=
  match s.phase with
  | .negotiating _ => s.ctx.state = .handshaking
  | .waiting _ => s.ctx.state = .idle
  | .connecting => s.ctx.state = .active
  | .relaying relay _ => s.ctx.state = .active ∧ relay.bothEnded = false
  | .stalled | .finished _ => True

/-- `t` comes from `s` by assigning `states` to `ctx.state`. -/
structure Moved (s t : ServerSession) (states : List SessionState) : Prop where
  assigned : t.assigned = s.assigned ++ states
  state : t.ctx.state = states.getLastD s.ctx.state
  count : t.ctx.requestCount = s.ctx.requestCount

section
variable {s t u : ServerSession} {states more : List SessionState}

theorem Moved.trans (first : Moved s t states) (second : Moved t u more) : Moved s u (states ++ more) := by
  refine ⟨?_, ?_, ?_⟩
  · rw [second.assigned, first.assigned, List.append_assoc]
  · rw [second.state, first.state]
    simp [List.getLastD_eq_getLast?, List.getLast?_append, Option.getD_or]
  · rw [second.count, first.count]

theorem Moved.still (ctx : t.ctx = s.ctx) (assigned : t.assigned = s.assigned) : Moved s t [] :=
  ⟨by simp [assigned], by simp [ctx], by simp [ctx]⟩

theorem setState_moved (state : SessionState) : Moved s (s.setState state) [state] := ⟨rfl, rfl, rfl⟩

theorem writeFrame_moved (frame : Frame) : Moved s (s.writeFrame frame).2 [] := by
  unfold writeFrame
  split <;> exact .still rfl rfl

theorem finishWith_moved {r : WriteResult × ServerSession} (h : Moved s r.2 states) :
    Moved s (finishWith r) states := by
  rcases r with ⟨_ | _ | _, t⟩ <;> exact ⟨h.assigned, h.state, h.count⟩

theorem finishWith_placed (r : WriteResult × ServerSession) : (finishWith r).Placed := by
  rcases r with ⟨_ | _ | _, t⟩ <;> exact trivial

/-- What `close` assigns, with its write done or not. -/
def Closing (states : List SessionState) : Prop := states = [.closing] ∨ states = [.closing, .closed]

/-- A step's part that assigns `states` and ends in a phase that fits. -/
def Led (s t : ServerSession) (states : List SessionState) : Prop := Moved s t states ∧ t.Placed

theorem close_led (reason : CloseReason) : ∃ states, Closing states ∧ Led s (finishWith (s.close reason)) states := by
  have written := writeFrame_moved (s := s.setState .closing) (.close (closeReasonCode reason))
  have closing := (setState_moved (s := s) .closing).trans written
  unfold close
  split
  · next done =>
    rw [done] at closing
    have closed := closing.trans (setState_moved .closed)
    exact ⟨_, .inr rfl, finishWith_moved closed, finishWith_placed _⟩
  · next undone =>
    rw [undone] at closing
    exact ⟨_, .inl rfl, finishWith_moved closing, finishWith_placed _⟩

theorem reset_led (reason : CloseReason) : Led s (finishWith (s.reset reason)) [.poisoned] := by
  have written := writeFrame_moved (s := s.setState .poisoned) (.reset (closeReasonCode reason))
  exact ⟨finishWith_moved ((setState_moved .poisoned).trans written), finishWith_placed _⟩

theorem loopHead_led (config : LoopConfig) (idle : s.ctx.state = .idle) (now : Nat) :
    ∃ states, (states = [] ∨ Closing states) ∧ Led s (s.loopHead config now) states := by
  have closed : ∀ reason, ∃ states, (states = [] ∨ Closing states) ∧ Led s (finishWith (s.close reason)) states := by
    intro reason
    obtain ⟨states, closing, led⟩ := close_led (s := s) reason
    exact ⟨states, .inr closing, led⟩
  unfold loopHead
  split
  · rw [gracefulShutdown_idle idle]
    exact closed _
  · split
    · exact closed _
    · exact ⟨[], .inl rfl, .still rfl rfl, idle⟩

theorem relayClosed_led (config : LoopConfig) (now : Nat) :
    ∃ states, (states = [] ∨ Closing states) ∧ Led s (s.relayClosed config now) (.idle :: states) := by
  have idle := setState_moved (s := s) .idle
  have closed : ∀ reason, ∃ states, (states = [] ∨ Closing states) ∧
      Led s (finishWith ((s.setState .idle).close reason)) (.idle :: states) := by
    intro reason
    obtain ⟨states, closing, moved, placed⟩ := close_led (s := s.setState .idle) reason
    exact ⟨states, .inr closing, idle.trans moved, placed⟩
  unfold relayClosed
  dsimp only
  split
  · exact closed _
  · split
    · exact closed _
    · obtain ⟨states, shape, moved, placed⟩ := loopHead_led config (s := s.setState .idle) rfl now
      exact ⟨states, shape, idle.trans moved, placed⟩

theorem conforms_idle {states : List SessionState} (shape : states = [] ∨ Closing states) :
    conforms .idle states = true := by
  rcases shape with rfl | rfl | rfl <;> rfl

theorem conforms_poisoned (state : SessionState) : conforms state [.poisoned] = true := by
  cases state <;> rfl

theorem relayNext_led (config : LoopConfig) (active : s.ctx.state = .active) (relay : ServerRelay) (now drainAt : Nat) :
    ∃ states, conforms .active states = !relay.bothEnded ∧ Led s (s.relayNext config now drainAt relay) states := by
  cases ended : relay.bothEnded with
  | true =>
    rw [relayNext_ended ended]
    obtain ⟨states, _, led⟩ := relayClosed_led config (s := s) now
    exact ⟨_, rfl, led⟩
  | false =>
    rw [relayNext_running ended]
    exact ⟨[], rfl, .still rfl rfl, active, ended⟩

/-- Whether the branch ends the second direction of the relay. -/
def endsRelay (input : LoopInput) : Branch ServerRelay → Bool
  | .send _ next => next.bothEnded && WriteResult.succeeds input.writes
  | .deliver _ next => next.bothEnded && input.targetWritten.isOk
  | .halfClose next | .proceed next => next.bothEnded
  | .finish _ => false

theorem writeFrame_succeeds (frame : Frame) :
    WriteResult.succeeds s.writes = decide ((s.writeFrame frame).1 = .done) := by
  unfold writeFrame
  cases s.writes with
  | nil => rfl
  | cons first rest => cases first <;> rfl

theorem relayFailed_led : ∃ states, conforms .active states = true ∧ Led s s.relayFailed states :=
  ⟨_, rfl, reset_led _⟩

theorem send_led (config : LoopConfig) {input : LoopInput} (active : s.ctx.state = .active)
    (writes : s.writes = input.writes) (frame : Frame) (next : ServerRelay) (drainAt : Nat) :
    ∃ states, conforms .active states = !endsRelay input (.send frame next) ∧
      Led s (s.relayBranch config input drainAt (.send frame next)) states := by
  have moved := writeFrame_moved (s := s) frame
  have stillActive : (s.writeFrame frame).2.ctx.state = .active := moved.state.trans active
  have succeeds := writeFrame_succeeds (s := s) frame
  rw [writes] at succeeds
  simp only [relayBranch, endsRelay, succeeds]
  split
  · next t written =>
    rw [written] at moved stillActive
    obtain ⟨states, conform, later, placed⟩ := relayNext_led config stillActive next input.now drainAt
    exact ⟨states, by simp [conform, written], moved.trans later, placed⟩
  · next err t written =>
    rw [written] at moved
    obtain ⟨states, conform, later, placed⟩ := relayFailed_led (s := t)
    exact ⟨states, by simp [conform, written], moved.trans later, placed⟩
  · next t written =>
    rw [written] at moved
    exact ⟨[], by simp [conforms, written], ⟨moved.assigned, moved.state, moved.count⟩, trivial⟩

theorem relayBranch_led (config : LoopConfig) {input : LoopInput} (active : s.ctx.state = .active)
    (writes : s.writes = input.writes) (branch : Branch ServerRelay) (drainAt : Nat) :
    ∃ states, conforms .active states = !endsRelay input branch ∧
      Led s (s.relayBranch config input drainAt branch) states := by
  have goesOn := fun next : ServerRelay => relayNext_led config active next input.now drainAt
  cases branch with
  | send frame next => exact send_led config active writes frame next drainAt
  | deliver bytes next =>
    simp only [relayBranch, endsRelay]
    split
    · next written =>
      rw [written]
      simpa [Except.isOk, Except.toBool] using goesOn next
    · next err written =>
      rw [written]
      simpa [Except.isOk, Except.toBool] using relayFailed_led
  | halfClose next => exact goesOn next
  | proceed next => exact goesOn next
  | finish result => exact relayFailed_led

theorem negotiateFrame_led (config : LoopConfig) (now : Nat) (caps : UInt16) :
    ∃ states, (states = [] ∨ Closing states) ∧
      Led s (s.negotiateFrame config now (.ok (.clientHello protocolVersion caps))) (.idle :: states) := by
  unfold negotiateFrame
  dsimp only
  rw [if_pos rfl, serveLoop_idle]
  · obtain ⟨states, shape, moved, placed⟩ := loopHead_led config (s := { s.setState .idle with
      ctx := { (s.setState .idle).ctx with lastActivity := now }, changed := s.touched }) rfl now
    have idle : Moved s { s.setState .idle with
      ctx := { (s.setState .idle).ctx with lastActivity := now }, changed := s.touched } [.idle] := ⟨rfl, rfl, rfl⟩
    exact ⟨states, shape, idle.trans moved, placed⟩
  · rfl

theorem handleFrame_led (config : LoopConfig) (idle : s.ctx.state = .idle) (now : Nat) {frame : Frame}
    (other : LoopEvent.requests (.frame (.ok frame)) = false) :
    ∃ states, conforms .idle states = true ∧ Led s (s.handleFrame config now frame) states := by
  cases frame with
  | openRequest cmd atyp addr port => cases other
  | ping token =>
    have moved := writeFrame_moved (s := s) (.pong token)
    have stillIdle : (s.writeFrame (.pong token)).2.ctx.state = .idle := moved.state.trans idle
    simp only [handleFrame]
    split
    · next t written =>
      rw [written] at moved stillIdle
      obtain ⟨states, shape, later, placed⟩ := loopHead_led config stillIdle now
      exact ⟨states, conforms_idle shape, moved.trans later, placed⟩
    · next outcome t _ written =>
      rw [written] at moved
      exact ⟨[], rfl, finishWith_moved moved, finishWith_placed _⟩
  | close reason =>
    obtain ⟨states, closing, led⟩ := close_led (s := s) .clientInitiated
    exact ⟨states, conforms_idle (.inr closing), led⟩
  | _ => exact ⟨_, conforms_poisoned _, reset_led _⟩

/-- A request is opened by leaving the life cycle, whatever follows. -/
theorem openRequest_led (config : LoopConfig) (now : Nat) (cmd atyp : UInt8) (addr : Bytes) (port : UInt16) :
    ∃ states, Led { s.setState .active with ctx := { (s.setState .active).ctx with
        requestCount := s.ctx.requestCount + 1 } }
      (s.handleFrame config now (.openRequest cmd atyp addr port)) states := by
  simp only [handleFrame]
  split
  · exact ⟨_, reset_led _⟩
  · exact ⟨[], .still rfl rfl, rfl⟩

/-! ## One step -/

structure Advanced (s : ServerSession) (input : LoopInput) (next : ServerSession) : Prop where
  count : next.ctx.requestCount = s.ctx.requestCount + s.opens input
  placed : next.Placed
  conform : conforms s.ctx.state next.assigned = !s.irregular input

variable {config : LoopConfig} {input : LoopInput} {next : ServerSession}

theorem Led.advanced (led : Led t next states) (fresh : t.assigned = [])
    (count : t.ctx.requestCount = s.ctx.requestCount + s.opens input)
    (conform : conforms s.ctx.state states = !s.irregular input) : Advanced s input next := by
  obtain ⟨moved, placed⟩ := led
  refine ⟨?_, placed, ?_⟩
  · rw [moved.count, count]
  · rw [moved.assigned, fresh, List.nil_append, conform]

theorem closed_irregular {reason : CloseReason} (handshaking : s.ctx.state = .handshaking)
    (unopened : s.opens input = 0) (irregular : s.irregular input = true) :
    Advanced s input (finishWith ((s.begin input).close reason)) := by
  obtain ⟨states, closing, led⟩ := close_led (s := s.begin input) reason
  apply led.advanced rfl
  · rw [unopened]
    rfl
  · rw [irregular, handshaking]
    rcases closing with rfl | rfl <;> rfl

theorem reset_regular {reason : CloseReason} (unopened : s.opens input = 0) (regular : s.irregular input = false) :
    Advanced s input (finishWith ((s.begin input).reset reason)) := by
  apply (reset_led reason).advanced rfl
  · rw [unopened]
    rfl
  · rw [regular]
    exact conforms_poisoned _

theorem negotiating_advanced {watching : Bool} (phase : s.phase = .negotiating watching) (placed : s.Placed)
    (h : (s.begin input).negotiating config input watching = some next) : Advanced s input next := by
  have handshaking : s.ctx.state = .handshaking := by
    unfold Placed at placed
    rwa [phase] at placed
  have unopened : s.opens input = 0 := by
    unfold opens
    rw [phase]
  have count : (s.begin input).ctx.requestCount = s.ctx.requestCount + s.opens input := by
    rw [unopened]
    rfl
  cases event : input.event with
  | frame result =>
    simp only [negotiating, event, Option.some.injEq] at h
    subst h
    cases result with
    | error err =>
      apply reset_regular unopened
      unfold irregular
      rw [phase, event]
    | ok frame =>
      cases frame with
      | clientHello version caps =>
        have hello : s.irregular input = decide (version ≠ protocolVersion) := by
          unfold irregular
          rw [phase, event]
        by_cases same : version = protocolVersion
        · subst same
          obtain ⟨states, shape, led⟩ := negotiateFrame_led (s := s.begin input) config input.now caps
          apply led.advanced rfl count
          rw [hello, handshaking]
          exact conforms_idle shape
        · unfold negotiateFrame
          dsimp only
          rw [if_neg same]
          exact closed_irregular handshaking unopened (hello.trans (decide_eq_true same))
      | _ =>
        apply reset_regular unopened
        unfold irregular
        rw [phase, event]
  | shutdownChanged =>
    have down : s.irregular input = s.shutdown := by
      unfold irregular
      rw [phase, event]
    simp only [negotiating, event] at h
    split at h
    · split at h
      · next shutdown =>
        cases h
        exact closed_irregular handshaking unopened (down.trans shutdown)
      · next up =>
        cases h
        have regular : s.irregular input = false := down.trans (Bool.eq_false_iff.mpr up)
        have led : Led (s.begin input) { s.begin input with phase := .negotiating false, changed := false } [] :=
          ⟨.still rfl rfl, handshaking⟩
        apply led.advanced rfl count
        rw [regular]
        rfl
    · cases h
  | _ => simp [negotiating, event] at h

theorem opens_waiting {idleAt : Nat} (phase : s.phase = .waiting idleAt) (input : LoopInput) :
    s.opens input = (input.event.requests).toNat ∧ s.irregular input = input.event.requests := by
  unfold opens irregular
  rw [phase]
  cases input.event with
  | frame result =>
    cases result with
    | error err => exact ⟨rfl, rfl⟩
    | ok frame => cases frame <;> exact ⟨rfl, rfl⟩
  | _ => exact ⟨rfl, rfl⟩

theorem Led.regular {idleAt : Nat} (led : Led t next states) (fresh : t.assigned = [])
    (count : t.ctx.requestCount = s.ctx.requestCount) (phase : s.phase = .waiting idleAt) (idle : s.ctx.state = .idle)
    (other : input.event.requests = false) (conform : conforms .idle states = true) : Advanced s input next := by
  obtain ⟨opened, irregular⟩ := opens_waiting phase input
  apply led.advanced fresh
  · rw [opened, other, count]
    rfl
  · rw [irregular, other, idle]
    exact conform

theorem waiting_advanced {idleAt : Nat} (phase : s.phase = .waiting idleAt) (placed : s.Placed)
    (h : (s.begin input).waiting config input idleAt = some next) : Advanced s input next := by
  have idle : s.ctx.state = .idle := by
    unfold Placed at placed
    rwa [phase] at placed
  cases event : input.event with
  | frame result =>
    cases result with
    | error err =>
      simp only [waiting, event, Option.some.injEq] at h
      subst h
      exact (reset_led _).regular rfl rfl phase idle (by rw [event]; rfl) (conforms_poisoned _)
    | ok frame =>
      simp only [waiting, event, Option.some.injEq] at h
      subst h
      cases asks : LoopEvent.requests (.frame (.ok frame)) with
      | false =>
        obtain ⟨states, conform, led⟩ := handleFrame_led config (s := { s.begin input with
          ctx := { s.ctx with lastActivity := input.now } }) idle input.now asks
        exact led.regular rfl rfl phase idle (by rw [event]; exact asks) conform
      | true =>
        obtain ⟨opened, irregular⟩ := opens_waiting phase input
        rw [event, asks] at opened irregular
        cases frame with
        | openRequest cmd atyp addr port =>
          obtain ⟨states, moved, placed⟩ := openRequest_led (s := { s.begin input with
            ctx := { s.ctx with lastActivity := input.now } }) config input.now cmd atyp addr port
          refine ⟨?_, placed, ?_⟩
          · rw [opened]
            exact moved.count
          · rw [irregular, idle]
            exact (congrArg (conforms .idle) moved.assigned).trans rfl
        | _ => cases asks
  | shutdownChanged =>
    have other : input.event.requests = false := by
      rw [event]
      rfl
    simp only [waiting, event] at h
    split at h
    · split at h
      · cases h
        rw [gracefulShutdown_idle]
        · obtain ⟨states, closing, led⟩ := close_led (s := { s.begin input with changed := false }) .shutdownDrain
          exact led.regular rfl rfl phase idle other (conforms_idle (.inr closing))
        · exact idle
      · cases h
        obtain ⟨states, shape, led⟩ := loopHead_led config (s := { s.begin input with changed := false }) idle input.now
        exact led.regular rfl rfl phase idle other (conforms_idle shape)
    · cases h
  | idleSleep =>
    have other : input.event.requests = false := by
      rw [event]
      rfl
    simp only [waiting, event] at h
    split at h
    · cases h
      obtain ⟨states, closing, led⟩ := close_led (s := s.begin input) .idleTimeout
      exact led.regular rfl rfl phase idle other (conforms_idle (.inr closing))
    · cases h
  | _ => simp [waiting, event] at h

theorem connecting_advanced (phase : s.phase = .connecting) (placed : s.Placed)
    (h : (s.begin input).connecting input = some next) : Advanced s input next := by
  have active : s.ctx.state = .active := by
    unfold Placed at placed
    rwa [phase] at placed
  have unopened : s.opens input = 0 := by
    unfold opens
    rw [phase]
  have regular : s.irregular input = false := by
    unfold irregular
    rw [phase]
  cases event : input.event with
  | connected result =>
    cases result with
    | ok _ =>
      simp only [connecting, event, Option.some.injEq] at h
      subst h
      have led : Led (s.begin input) { s.begin input with
          phase := .relaying (.start s.shutdown) (input.now + shutdownDrainTimeout) } [] :=
        ⟨.still rfl rfl, active, rfl⟩
      apply led.advanced rfl
      · rw [unopened]
        rfl
      · rw [regular]
        rfl
    | error err =>
      simp only [connecting, event, Option.some.injEq] at h
      subst h
      exact reset_regular unopened regular
  | _ => simp [connecting, event] at h

section
variable {relay : ServerRelay} {drainAt : Nat}

theorem frameRead_irregular {result : Except FrameError Frame} (phase : s.phase = .relaying relay drainAt)
    (event : input.event = .frame result) (open_ : relay.clientEnded = false) :
    s.irregular input = endsRelay input (relay.frameRead result) := by
  unfold irregular
  rw [phase, event]
  cases result with
  | error err => rfl
  | ok frame => cases frame <;> simp [ServerRelay.frameRead, endsRelay, ServerRelay.bothEnded, open_]

theorem targetRead_irregular {read : Except IoError Bytes} (phase : s.phase = .relaying relay drainAt)
    (event : input.event = .target read) (open_ : relay.targetEnded = false) :
    s.irregular input = endsRelay input (relay.targetRead read) := by
  unfold irregular
  rw [phase, event]
  cases read with
  | error err => rfl
  | ok bytes => cases bytes <;> simp [ServerRelay.targetRead, endsRelay, ServerRelay.bothEnded, open_]

theorem relaying_advanced (phase : s.phase = .relaying relay drainAt) (placed : s.Placed)
    (h : (s.begin input).relaying config input relay drainAt = some next) : Advanced s input next := by
  obtain ⟨active, running⟩ : s.ctx.state = .active ∧ relay.bothEnded = false := by
    unfold Placed at placed
    rwa [phase] at placed
  have unopened : s.opens input = 0 := by
    unfold opens
    rw [phase]
  have branched : ∀ {t : ServerSession} {branch : Branch ServerRelay} {until_ : Nat}, t.ctx = s.ctx → t.assigned = [] →
      t.writes = input.writes → s.irregular input = endsRelay input branch →
      Advanced s input (t.relayBranch config input until_ branch) := by
    intro t branch until_ ctx fresh writes irregular
    have stillActive : t.ctx.state = .active := by
      rw [ctx]
      exact active
    obtain ⟨states, conform, led⟩ := relayBranch_led config stillActive writes branch until_
    apply led.advanced fresh
    · rw [unopened, ctx, Nat.add_zero]
    · rw [active, irregular]
      exact conform
  cases event : input.event with
  | frame result =>
    simp only [relaying, event] at h
    split at h
    · cases h
    · next open_ =>
      cases h
      exact branched rfl rfl rfl (frameRead_irregular phase event (Bool.eq_false_iff.mpr open_))
  | target read =>
    simp only [relaying, event] at h
    split at h
    · cases h
    · next open_ =>
      cases h
      exact branched rfl rfl rfl (targetRead_irregular phase event (Bool.eq_false_iff.mpr open_))
  | shutdownChanged =>
    have regular : s.irregular input = false := by
      unfold irregular
      rw [phase, event]
    simp only [relaying, event] at h
    split at h
    · cases h
    · cases h
      apply branched
      · rfl
      · rfl
      · rfl
      · rw [regular]
        unfold ServerRelay.shutdownChanged
        split <;> exact running.symm
  | drainSleep =>
    have regular : s.irregular input = false := by
      unfold irregular
      rw [phase, event]
    simp only [relaying, event] at h
    split at h
    · cases h
      exact branched rfl rfl rfl regular
    · cases h
  | _ => simp [relaying, event] at h

end

theorem step_advanced (placed : s.Placed) (h : s.step config input = some next) : Advanced s input next := by
  rcases step_cases h with ⟨value, event, rfl⟩ | ⟨watching, phase, h⟩ | ⟨idleAt, phase, h⟩ | ⟨phase, h⟩ |
    ⟨relay, drainAt, phase, h⟩
  · have quiet : s.opens input = 0 ∧ s.irregular input = false := by
      unfold opens irregular
      rw [event]
      cases s.phase <;> exact ⟨rfl, rfl⟩
    refine ⟨?_, placed, ?_⟩
    · rw [quiet.1]
      rfl
    · rw [quiet.2]
      rfl
  · exact negotiating_advanced phase placed h
  · exact waiting_advanced phase placed h
  · exact connecting_advanced phase placed h
  · exact relaying_advanced phase placed h

theorem placed_of_reachable {now : Nat} {shutdown : Bool} (h : Reachable (step config) (start now shutdown) s) :
    s.Placed := by
  have handshaking : (start now shutdown).Placed := rfl
  apply reachable_invariant _ handshaking h
  intro s input next placed stepped
  exact (step_advanced placed stepped).placed

end
end ServerSession

/-- In every state a session loop reaches, the state changes of the next step are declared ones exactly
when the step neither closes a session that is not yet idle nor opens or ends a request. -/
theorem lifecycle_conforms_iff (config : LoopConfig) (now : Nat) (shutdown : Bool) (s : ServerSession)
    (input : LoopInput) (next : ServerSession)
    (reached : Reachable (ServerSession.step config) (ServerSession.start now shutdown) s)
    (stepped : s.step config input = some next) :
    conforms s.ctx.state next.assigned = true ↔ s.irregular input = false := by
  have advanced := ServerSession.step_advanced (ServerSession.placed_of_reachable reached) stepped
  rw [advanced.conform]
  simp

theorem lifecycle_conforms_hello :
    ∃ next, (ServerSession.start 0 false).step ⟨10, 100, 50⟩ ⟨.frame (.ok (.clientHello 1 0)), 1, [], .ok ()⟩ =
        some next ∧
      next.assigned = [.idle] ∧ conforms .handshaking next.assigned = true := by
  refine ⟨⟨⟨.idle, 0, 0, 1⟩, .waiting 51, false, false, false, [], [], [.idle]⟩, rfl, rfl, ?_⟩
  exact (lifecycle_conforms_iff ⟨10, 100, 50⟩ 0 false (.start 0 false)
    ⟨.frame (.ok (.clientHello 1 0)), 1, [], .ok ()⟩ _
    ⟨[], rfl⟩ rfl).mpr rfl

/-- The first request of a session: `Idle` goes to `Active` without `Opening`. -/
theorem lifecycle_skips_opening :
    ∃ s next, run (ServerSession.step ⟨10, 100, 50⟩) (.start 0 false)
        [⟨.frame (.ok (.clientHello 1 0)), 1, [], .ok ()⟩] = some s ∧
      s.step ⟨10, 100, 50⟩ ⟨.frame (.ok (.openRequest 0x01 0x01 [127, 0, 0, 1] 80)), 2, [], .ok ()⟩ = some next ∧
      s.ctx.state = .idle ∧ next.assigned = [.active] ∧ SessionState.canTransitionTo .idle .active = false ∧
      conforms s.ctx.state next.assigned = false := by
  refine ⟨⟨⟨.idle, 0, 0, 1⟩, .waiting 51, false, false, false, [], [], [.idle]⟩,
    ⟨⟨.active, 1, 0, 2⟩, .connecting, false, false, false, [], [], [.active]⟩, ?_⟩
  decide +kernel

end NoisyShuttle.Shuttle
