import NoisyShuttle.Shuttle.Conformance

/-!
# The idle timeout

The session loop with a clock and the last moment at which a frame was received or a request was in
progress, held against the Close frames it sends for idleness.
-/

namespace NoisyShuttle.Shuttle
open Session
open Tunnel (IoError)

def idleClose : Frame := .close (closeReasonCode .idleTimeout)

def Phase.requesting : Phase → Bool
  | .connecting | .relaying _ _ => true
  | _ => false

def LoopEvent.received : LoopEvent → Bool
  | .frame (.ok _) => true
  | _ => false

/-- The writes of a step that ends in a Close frame go through; the end of the target writes an
EndRequest first. -/
def LoopInput.writesClose (input : LoopInput) : Bool :=
  match input.event with
  | .target _ => WriteResult.succeeds input.writes && WriteResult.succeeds input.writes.tail
  | _ => WriteResult.succeeds input.writes

theorem closeReasonCode_idleTimeout {reason : CloseReason} :
    Frame.close (closeReasonCode reason) = idleClose ↔ reason = .idleTimeout := by
  cases reason <;> decide

/-- A session that has just been active is not idle, unless the timeout is zero. -/
theorem timeout_of_expiredLimit {config : LoopConfig} {ctx : SessionContext} {now : Nat}
    (h : expiredLimit config { ctx with lastActivity := now } now = some .idleTimeout) : config.idleTimeout = 0 := by
  unfold expiredLimit at h
  split at h
  · cases h
  split at h
  · cases h
  split at h
  · next elapsed =>
    have expired := (of_decide_eq_true elapsed).2
    dsimp only at expired
    omega
  · cases h

namespace ServerSession

/-! ## What a part of a step sends -/

/-- From `s` to `t` a Close frame for idleness is sent exactly if `cut`, and if the loop waits in `t`
it began to at `now`. -/
structure Part (config : LoopConfig) (now : Nat) (s t : ServerSession) (cut : Prop) : Prop where
  closes : idleClose ∈ t.sent ↔ idleClose ∈ s.sent ∨ cut
  waits : ∀ idleAt, t.phase = .waiting idleAt → idleAt = now + config.idleTimeout

/-- The loop finds the session idle for too long, and can say so. -/
def Expires (config : LoopConfig) (now : Nat) (s : ServerSession) : Prop :=
  s.shutdown = false ∧ expiredLimit config s.ctx now = some .idleTimeout ∧ WriteResult.succeeds s.writes = true

variable {config : LoopConfig} {now : Nat} {s t u : ServerSession} {cut cut' : Prop}

theorem Part.congr (part : Part config now s t cut) (same : cut ↔ cut') : Part config now s t cut' :=
  ⟨part.closes.trans (or_congr_right same), part.waits⟩

theorem Part.after (part : Part config now u t cut) (sent : idleClose ∈ u.sent ↔ idleClose ∈ s.sent) :
    Part config now s t cut :=
  ⟨part.closes.trans (or_congr_left sent), part.waits⟩

theorem writeFrame_other {frame : Frame} (other : frame ≠ idleClose) :
    idleClose ∈ (s.writeFrame frame).2.sent ↔ idleClose ∈ s.sent := by
  rw [writeFrame_sends, List.mem_append, or_iff_left]
  split
  · exact fun member => other (List.mem_singleton.mp member).symm
  · nofun

/-- A session that expires once a frame is written. -/
theorem writeFrame_expires (frame : Frame) :
    (s.writeFrame frame).1 = .done ∧ (s.writeFrame frame).2.Expires config now ↔
      s.shutdown = false ∧ expiredLimit config s.ctx now = some .idleTimeout ∧
        WriteResult.succeeds s.writes = true ∧ WriteResult.succeeds s.writes.tail = true := by
  unfold writeFrame
  cases s.writes with
  | nil => simp [Expires, WriteResult.succeeds]
  | cons first rest =>
    cases first with
    | done => simp [Expires, WriteResult.succeeds]
    | failed err => simp [WriteResult.succeeds]
    | stalled => simp [WriteResult.succeeds]

theorem finishWith_part {r : WriteResult × ServerSession} (sent : idleClose ∈ r.2.sent ↔ idleClose ∈ s.sent ∨ cut) :
    Part config now s (finishWith r) cut := by
  rcases r with ⟨_ | _ | _, t⟩ <;> exact ⟨sent, nofun⟩

theorem close_part (reason : CloseReason) :
    Part config now s (finishWith (s.close reason))
      (reason = .idleTimeout ∧ WriteResult.succeeds s.writes = true) := by
  apply finishWith_part
  rw [close_sends, List.mem_append]
  apply or_congr_right
  split
  · next succeeds => rw [List.mem_singleton, eq_comm, closeReasonCode_idleTimeout, and_iff_left succeeds]
  · next fails => exact ⟨nofun, fun expired => absurd expired.2 fails⟩

theorem reset_part (reason : CloseReason) : Part config now s (finishWith (s.reset reason)) False := by
  apply finishWith_part
  unfold reset
  rw [writeFrame_sends, List.mem_append]
  apply or_congr_right
  split
  · exact ⟨fun member => absurd (List.mem_singleton.mp member) nofun, nofun⟩
  · exact ⟨nofun, nofun⟩

theorem expired_part (reason : CloseReason) (up : s.shutdown = false)
    (expired : expiredLimit config s.ctx now = some reason) :
    Part config now s (finishWith (s.close reason)) (s.Expires config now) := by
  apply (close_part reason).congr
  unfold Expires
  rw [expired, Option.some.injEq, and_iff_right up]

theorem loopHead_part (idle : s.ctx.state = .idle) :
    Part config now s (s.loopHead config now) (s.Expires config now) := by
  unfold loopHead
  split
  · next down =>
    rw [gracefulShutdown_idle idle]
    apply (close_part _).congr
    exact ⟨nofun, fun expires => absurd (down.symm.trans expires.1) nofun⟩
  · next up =>
    split
    · next reason expired => exact expired_part reason (Bool.eq_false_iff.mpr up) expired
    · next young =>
      refine ⟨?_, fun idleAt waiting => (Phase.waiting.inj waiting).symm⟩
      unfold Expires
      rw [young]
      simp

theorem relayClosed_part : Part config now s (s.relayClosed config now) (s.Expires config now) := by
  have idle : Part config now (s.setState .idle) (s.relayClosed config now)
      ((s.setState .idle).Expires config now) := by
    unfold relayClosed
    dsimp only
    split
    · next down =>
      apply (close_part _).congr
      exact ⟨nofun, fun expires => absurd (down.symm.trans expires.1) nofun⟩
    · next up =>
      split
      · next reason expired => exact expired_part reason (Bool.eq_false_iff.mpr up) expired
      · exact loopHead_part rfl
  exact idle.after Iff.rfl

theorem relayNext_part (drainAt : Nat) (relay : ServerRelay) :
    Part config now s (s.relayNext config now drainAt relay) (relay.bothEnded = true ∧ s.Expires config now) := by
  cases ended : relay.bothEnded with
  | true =>
    rw [relayNext_ended ended]
    exact relayClosed_part.congr (and_iff_right rfl).symm
  | false =>
    rw [relayNext_running ended]
    exact ⟨by simp, nofun⟩

/-- The branch ends the relay of a session that expires. -/
def cuts (config : LoopConfig) (input : LoopInput) (s : ServerSession) : Branch ServerRelay → Prop
  | .send frame next =>
    (s.writeFrame frame).1 = .done ∧ next.bothEnded = true ∧ (s.writeFrame frame).2.Expires config input.now
  | .deliver _ next => input.targetWritten.isOk = true ∧ next.bothEnded = true ∧ s.Expires config input.now
  | .halfClose next | .proceed next => next.bothEnded = true ∧ s.Expires config input.now
  | .finish _ => False

theorem relayBranch_part {input : LoopInput} (drainAt : Nat) {branch : Branch ServerRelay}
    (other : ∀ frame next, branch = .send frame next → frame ≠ idleClose) :
    Part config input.now s (s.relayBranch config input drainAt branch) (s.cuts config input branch) := by
  cases branch with
  | send frame next =>
    have sent := writeFrame_other (s := s) (other frame next rfl)
    simp only [relayBranch, cuts]
    split
    · next t written =>
      rw [written] at sent ⊢
      exact ((relayNext_part drainAt next).after sent).congr (and_iff_right rfl).symm
    · next err t written =>
      rw [written] at sent ⊢
      exact ((reset_part _).after sent).congr (iff_of_false id (by simp))
    · next t written =>
      rw [written] at sent ⊢
      refine ⟨sent.trans (or_iff_left (by simp)).symm, ?_⟩
      intro idleAt waits
      cases waits
  | deliver bytes next =>
    simp only [relayBranch, cuts]
    split
    · next written =>
      rw [written]
      exact (relayNext_part drainAt next).congr (and_iff_right rfl).symm
    · next err written =>
      rw [written]
      exact (reset_part _).congr (iff_of_false id fun closes => Bool.false_ne_true closes.1)
  | halfClose next => exact relayNext_part drainAt next
  | proceed next => exact relayNext_part drainAt next
  | finish result => exact reset_part _

/-! ## What a step sends -/

/-- A request ends, or the watch channel wakes the waiting loop, when `last_activity` is already
`idle_timeout` ago. -/
def Overdue (config : LoopConfig) (s : ServerSession) (input : LoopInput) : Prop :=
  s.concludes input.event = true ∧ s.shutdown = false ∧
    expiredLimit config s.ctx input.now = some .idleTimeout ∧ input.writesClose = true

instance (config : LoopConfig) (s : ServerSession) (input : LoopInput) : Decidable (s.Overdue config input) :=
  inferInstanceAs (Decidable (_ ∧ _ ∧ _ ∧ _))

section
variable {input : LoopInput} {next : ServerSession}

theorem negotiating_part {watching : Bool} (h : (s.begin input).negotiating config input watching = some next) :
    ∃ cut, Part config input.now (s.begin input) next cut ∧ (cut → config.idleTimeout = 0) := by
  cases event : input.event with
  | frame result =>
    simp only [negotiating, event, Option.some.injEq] at h
    subst h
    cases result with
    | error err => exact ⟨False, reset_part _, False.elim⟩
    | ok frame =>
      cases frame with
      | clientHello version caps =>
        unfold negotiateFrame
        dsimp only
        split
        · rw [serveLoop_idle]
          · exact ⟨_, (loopHead_part rfl).after Iff.rfl, fun expires => timeout_of_expiredLimit expires.2.1⟩
          · rfl
        · exact ⟨_, close_part _, fun closes => absurd closes.1 (by decide)⟩
      | _ => exact ⟨False, reset_part _, False.elim⟩
  | shutdownChanged =>
    simp only [negotiating, event] at h
    split at h
    · split at h
      · cases h
        exact ⟨_, close_part _, fun closes => absurd closes.1 (by decide)⟩
      · cases h
        refine ⟨False, ⟨by simp, ?_⟩, False.elim⟩
        intro idleAt waits
        cases waits
    · cases h
  | _ => simp [negotiating, event] at h

theorem handleFrame_part (config : LoopConfig) (now : Nat) (idle : s.ctx.state = .idle) (frame : Frame) :
    ∃ cut, Part config now s (s.handleFrame config now frame) cut ∧
      (cut → expiredLimit config s.ctx now = some .idleTimeout) := by
  cases frame with
  | openRequest cmd atyp addr port =>
    simp only [handleFrame]
    split
    · exact ⟨False, (reset_part _).after Iff.rfl, False.elim⟩
    · refine ⟨False, ⟨by simp [setState], ?_⟩, False.elim⟩
      intro idleAt waits
      cases waits
  | ping token =>
    have sent : idleClose ∈ (s.writeFrame (.pong token)).2.sent ↔ idleClose ∈ s.sent :=
      writeFrame_other (by simp [idleClose])
    have ctx := writeFrame_ctx (s := s) (.pong token)
    simp only [handleFrame]
    split
    · next t written =>
      rw [written] at sent ctx
      have stillIdle : t.ctx.state = .idle := by
        rw [ctx]
        exact idle
      exact ⟨_, (loopHead_part stillIdle).after sent, fun expires => by rw [← ctx]; exact expires.2.1⟩
    · next outcome t _ written =>
      rw [written] at sent
      exact ⟨False, finishWith_part (sent.trans (or_iff_left not_false).symm), False.elim⟩
  | close reason => exact ⟨_, close_part _, fun closes => absurd closes.1 (by decide)⟩
  | _ => exact ⟨False, reset_part _, False.elim⟩

theorem waiting_part {idleAt : Nat} (phase : s.phase = .waiting idleAt) (placed : s.Placed)
    (h : (s.begin input).waiting config input idleAt = some next) :
    ∃ cut, Part config input.now (s.begin input) next cut ∧
      (cut → config.idleTimeout = 0 ∨ (input.event = .idleSleep ∧ idleAt ≤ input.now) ∨ s.Overdue config input) ∧
      (s.Overdue config input → cut) := by
  have idle : s.ctx.state = .idle := by
    unfold Placed at placed
    rwa [phase] at placed
  have quiet : ∀ {cut : Prop}, s.concludes input.event = false → s.Overdue config input → cut :=
    fun no overdue => absurd (no.symm.trans overdue.1) Bool.false_ne_true
  cases event : input.event with
  | frame result =>
    have no : s.concludes input.event = false := by
      rw [Bool.eq_false_iff]
      intro concludes
      rcases concludes_cases concludes with ⟨-, relay, drainAt, other⟩ | ⟨other, -⟩
      · cases phase.symm.trans other
      · cases event.symm.trans other
    simp only [waiting, event] at h
    cases result with
    | error err =>
      cases h
      exact ⟨False, reset_part _, False.elim, quiet no⟩
    | ok frame =>
      cases h
      have stillIdle : { s.begin input with ctx := { s.ctx with lastActivity := input.now } }.ctx.state = .idle := idle
      obtain ⟨cut, part, expired⟩ := handleFrame_part config input.now stillIdle frame
      exact ⟨cut, part.after Iff.rfl, fun given => .inl (timeout_of_expiredLimit (expired given)), quiet no⟩
  | shutdownChanged =>
    have concludes := concludes_shutdownChanged phase
    simp only [waiting, event] at h
    split at h
    · split at h
      · next down =>
        cases h
        rw [gracefulShutdown_idle]
        · refine ⟨_, (close_part _).after Iff.rfl, fun closes => absurd closes.1 (by decide), ?_⟩
          intro overdue
          cases down.symm.trans overdue.2.1
        · exact idle
      · next up =>
        cases h
        have stillIdle : { s.begin input with changed := false }.ctx.state = .idle := idle
        refine ⟨_, (loopHead_part stillIdle).after Iff.rfl, ?_, ?_⟩
        · intro expires
          refine .inr (.inr ⟨event ▸ concludes, expires.1, expires.2.1, ?_⟩)
          unfold LoopInput.writesClose
          rw [event]
          exact expires.2.2
        · rintro ⟨-, up, expired, writes⟩
          unfold LoopInput.writesClose at writes
          rw [event] at writes
          exact ⟨up, expired, writes⟩
    · cases h
  | idleSleep =>
    have no : s.concludes input.event = false := by
      rw [event]
      rfl
    simp only [waiting, event] at h
    split at h
    · next elapsed =>
      cases h
      exact ⟨_, close_part _, fun _ => .inr (.inl ⟨rfl, elapsed⟩), quiet no⟩
    · cases h
  | _ => simp [waiting, event] at h

theorem connecting_part (h : (s.begin input).connecting input = some next) :
    Part config input.now (s.begin input) next False := by
  cases event : input.event with
  | connected result =>
    cases result with
    | ok _ =>
      simp only [connecting, event, Option.some.injEq] at h
      subst h
      refine ⟨by simp, ?_⟩
      intro idleAt waits
      cases waits
    | error err =>
      simp only [connecting, event, Option.some.injEq] at h
      subst h
      exact reset_part _
  | _ => simp [connecting, event] at h

section
variable {relay : ServerRelay} {drainAt : Nat}

theorem frameRead_cuts {result : Except FrameError Frame} (phase : s.phase = .relaying relay drainAt)
    (event : input.event = .frame result) (open_ : relay.clientEnded = false) :
    (s.begin input).cuts config input (relay.frameRead result) ↔ s.Overdue config input := by
  unfold Overdue LoopInput.writesClose
  rw [event]
  cases result with
  | error err => exact iff_of_false id fun overdue => Bool.false_ne_true overdue.1
  | ok frame =>
    cases frame with
    | endRequest reason =>
      rw [concludes_endRequest phase]
      simp [ServerRelay.frameRead, cuts, ServerRelay.bothEnded, Expires, begin]
    | _ =>
      refine iff_of_false ?_ fun overdue => Bool.false_ne_true overdue.1
      simp [ServerRelay.frameRead, cuts, ServerRelay.bothEnded, open_]

theorem targetRead_cuts {read : Except IoError Bytes} (phase : s.phase = .relaying relay drainAt)
    (event : input.event = .target read) (open_ : relay.targetEnded = false) :
    (s.begin input).cuts config input (relay.targetRead read) ↔ s.Overdue config input := by
  unfold Overdue LoopInput.writesClose
  rw [event]
  cases read with
  | error err => exact iff_of_false id fun overdue => Bool.false_ne_true overdue.1
  | ok bytes =>
    cases bytes with
    | nil =>
      have ended : { relay with targetEnded := true }.bothEnded = relay.clientEnded := Bool.and_true _
      rw [concludes_targetEnd phase]
      unfold ServerRelay.targetRead cuts
      dsimp only
      rw [and_left_comm, writeFrame_expires, ended, Bool.and_eq_true]
      rfl
    | cons byte more =>
      refine iff_of_false ?_ fun overdue => Bool.false_ne_true overdue.1
      simp [ServerRelay.targetRead, cuts, ServerRelay.bothEnded, open_]

theorem frameRead_other {result : Except FrameError Frame} :
    ∀ frame next, relay.frameRead result = .send frame next → frame ≠ idleClose := by
  intro frame next given
  unfold ServerRelay.frameRead at given
  split at given <;> cases given
  nofun

theorem targetRead_other {read : Except IoError Bytes} :
    ∀ frame next, relay.targetRead read = .send frame next → frame ≠ idleClose := by
  intro frame next given
  unfold ServerRelay.targetRead at given
  split at given <;> cases given
  · nofun
  · nofun

theorem relaying_part (phase : s.phase = .relaying relay drainAt) (placed : s.Placed)
    (h : (s.begin input).relaying config input relay drainAt = some next) :
    Part config input.now (s.begin input) next (s.Overdue config input) := by
  obtain ⟨-, running⟩ : s.ctx.state = .active ∧ relay.bothEnded = false := by
    unfold Placed at placed
    rwa [phase] at placed
  cases event : input.event with
  | frame result =>
    simp only [relaying, event] at h
    split at h
    · cases h
    · next open_ =>
      cases h
      exact (relayBranch_part drainAt frameRead_other).congr
        (frameRead_cuts phase event (Bool.eq_false_iff.mpr open_))
  | target read =>
    simp only [relaying, event] at h
    split at h
    · cases h
    · next open_ =>
      cases h
      exact (relayBranch_part drainAt targetRead_other).congr
        (targetRead_cuts phase event (Bool.eq_false_iff.mpr open_))
  | shutdownChanged =>
    have no : s.concludes input.event = false := by
      rw [event]
      unfold concludes
      dsimp only
      rw [phase]
    have still : ∀ down : Bool, (if down then { relay with draining := true } else relay).bothEnded = false := by
      intro down
      split <;> exact running
    simp only [relaying, event] at h
    split at h
    · cases h
    · cases h
      have part : Part config input.now (s.begin input)
          ({ s.begin input with changed := false }.relayNext config input.now
            (if s.shutdown then input.now + shutdownDrainTimeout else drainAt)
            (if s.shutdown then { relay with draining := true } else relay)) _ :=
        (relayNext_part _ _).after Iff.rfl
      apply part.congr
      constructor
      · rintro ⟨ended, -⟩
        exact absurd ((still _).symm.trans ended) Bool.false_ne_true
      · intro overdue
        exact absurd (no.symm.trans overdue.1) Bool.false_ne_true
  | drainSleep =>
    have no : s.concludes input.event = false := by
      rw [event]
      rfl
    simp only [relaying, event] at h
    split at h
    · cases h
      exact (reset_part _).congr (iff_of_false id fun overdue => absurd (no.symm.trans overdue.1) Bool.false_ne_true)
    · cases h
  | _ => simp [relaying, event] at h

end

theorem concludes_phase {event : LoopEvent} (h : s.concludes event = true) :
    (∃ idleAt, s.phase = .waiting idleAt) ∨ ∃ relay drainAt, s.phase = .relaying relay drainAt := by
  rcases concludes_cases h with ⟨-, relaying⟩ | ⟨-, waiting⟩
  · exact .inr relaying
  · exact .inl waiting

/-- The steps that close a session for idleness. -/
def ClosesIdle (config : LoopConfig) (s : ServerSession) (input : LoopInput) : Prop :=
  config.idleTimeout = 0 ∨
    (∃ idleAt, s.phase = .waiting idleAt ∧ input.event = .idleSleep ∧ idleAt ≤ input.now) ∨ s.Overdue config input

theorem step_part (placed : s.Placed) (h : s.step config input = some next) :
    (∃ cut, Part config input.now (s.begin input) next cut ∧ (cut → s.ClosesIdle config input) ∧
      (s.Overdue config input → cut)) ∨
      ((∃ value, input.event = .sendShutdown value) ∧ next.sent = [] ∧ next.phase = s.phase) := by
  rcases step_cases h with ⟨value, event, rfl⟩ | ⟨watching, phase, h⟩ | ⟨idleAt, phase, h⟩ | ⟨phase, h⟩ |
    ⟨relay, drainAt, phase, h⟩
  · exact .inr ⟨⟨value, event⟩, rfl, rfl⟩
  · left
    obtain ⟨cut, part, zero⟩ := negotiating_part (s := s) h
    refine ⟨cut, part, fun given => .inl (zero given), ?_⟩
    rintro ⟨concludes, -⟩
    rcases concludes_phase concludes with ⟨idleAt, other⟩ | ⟨relay, drainAt, other⟩
    all_goals
      rw [phase] at other
      cases other
  · left
    obtain ⟨cut, part, reasons, overdue⟩ := waiting_part phase placed h
    refine ⟨cut, part, fun given => ?_, overdue⟩
    rcases reasons given with zero | ⟨event, elapsed⟩ | late
    · exact .inl zero
    · exact .inr (.inl ⟨idleAt, phase, event, elapsed⟩)
    · exact .inr (.inr late)
  · left
    refine ⟨False, connecting_part h, nofun, ?_⟩
    rintro ⟨concludes, -⟩
    rcases concludes_phase concludes with ⟨idleAt, other⟩ | ⟨relay, drainAt, other⟩
    all_goals
      rw [phase] at other
      cases other
  · left
    exact ⟨_, relaying_part phase placed h, fun late => .inr (.inr late), id⟩

theorem closesIdle_of_sent (placed : s.Placed) (h : s.step config input = some next)
    (sent : idleClose ∈ next.sent) : s.ClosesIdle config input := by
  rcases step_part placed h with ⟨cut, part, reasons, -⟩ | ⟨-, none, -⟩
  · exact reasons ((part.closes.mp sent).resolve_left nofun)
  · rw [none] at sent
    cases sent

theorem sent_of_overdue (placed : s.Placed) (h : s.step config input = some next)
    (overdue : s.Overdue config input) : idleClose ∈ next.sent := by
  rcases step_part placed h with ⟨cut, part, -, cuts⟩ | ⟨⟨value, event⟩, -, -⟩
  · exact part.closes.mpr (.inr (cuts overdue))
  · obtain ⟨concludes, -⟩ := overdue
    rw [event] at concludes
    cases concludes

theorem step_waits (placed : s.Placed) (h : s.step config input = some next) {idleAt : Nat}
    (waiting : next.phase = .waiting idleAt) :
    idleAt = input.now + config.idleTimeout ∨
      (∃ value, input.event = .sendShutdown value) ∧ s.phase = .waiting idleAt := by
  rcases step_part placed h with ⟨cut, part, -, -⟩ | ⟨sends, -, phase⟩
  · exact .inl (part.waits idleAt waiting)
  · exact .inr ⟨sends, phase.symm.trans waiting⟩

end
end ServerSession

/-! ## Whole runs -/

/-- `busyAt` is the last moment at which a frame was received or a request was in progress. -/
structure Timed where
  session : ServerSession
  clock : Nat
  busyAt : Nat

namespace Timed

def start (now : Nat) (shutdown : Bool) : Timed := ⟨.start now shutdown, now, now⟩

def busyAfter (t : Timed) (input : LoopInput) : Nat :=
  if t.session.phase.requesting || input.event.received then input.now else t.busyAt

def step (config : LoopConfig) (t : Timed) (input : LoopInput) : Option Timed :=
  if t.clock ≤ input.now then
    (t.session.step config input).map fun next => ⟨next, input.now, t.busyAfter input⟩
  else none

/-- A step closes the session for idleness only if it has been idle for that long. -/
def Honest (config : LoopConfig) (t : Timed) (input : LoopInput) : Prop :=
  ∀ next, t.step config input = some next → idleClose ∈ next.session.sent →
    next.busyAt + config.idleTimeout ≤ input.now

/-- The session is overdue while its last activity is not. -/
def Stale (config : LoopConfig) (t : Timed) (input : LoopInput) : Prop :=
  t.session.Overdue config input ∧ input.now < t.busyAfter input + config.idleTimeout

instance (config : LoopConfig) (t : Timed) (input : LoopInput) : Decidable (t.Stale config input) :=
  inferInstanceAs (Decidable (_ ∧ _))

structure Sound (config : LoopConfig) (t : Timed) : Prop where
  placed : t.session.Placed
  past : t.busyAt ≤ t.clock
  deadline : ∀ idleAt, t.session.phase = .waiting idleAt → t.busyAt + config.idleTimeout ≤ idleAt

variable {config : LoopConfig} {t next : Timed} {input : LoopInput}

theorem step_eq_some (h : t.step config input = some next) :
    t.clock ≤ input.now ∧ t.session.step config input = some next.session ∧
      next = ⟨next.session, input.now, t.busyAfter input⟩ := by
  unfold step at h
  split at h
  · next later =>
    obtain ⟨session, stepped, rfl⟩ := Option.map_eq_some_iff.mp h
    exact ⟨later, stepped, rfl⟩
  · cases h

theorem busyAfter_le (sound : t.Sound config) (later : t.clock ≤ input.now) : t.busyAfter input ≤ input.now := by
  unfold busyAfter
  split
  · exact Nat.le_refl _
  · exact Nat.le_trans sound.past later

theorem busyAfter_quiet {idleAt : Nat} (phase : t.session.phase = .waiting idleAt)
    (silent : input.event.received = false) : t.busyAfter input = t.busyAt := by
  unfold busyAfter
  rw [phase, silent]
  rfl

theorem step_sound (config : LoopConfig) (t : Timed) (input : LoopInput) (next : Timed) (sound : t.Sound config)
    (h : t.step config input = some next) : next.Sound config := by
  obtain ⟨later, stepped, shape⟩ := step_eq_some h
  have active := busyAfter_le sound later
  rw [shape]
  refine ⟨(ServerSession.step_advanced sound.placed stepped).placed, active, ?_⟩
  intro idleAt waiting
  dsimp only
  rcases ServerSession.step_waits sound.placed stepped waiting with rfl | ⟨⟨value, event⟩, phase⟩
  · omega
  · rw [busyAfter_quiet phase]
    · exact sound.deadline idleAt phase
    · rw [event]
      rfl

theorem honest_iff (sound : t.Sound config) (h : t.step config input = some next) :
    t.Honest config input ↔ ¬ t.Stale config input := by
  obtain ⟨later, stepped, shape⟩ := step_eq_some h
  have active := busyAfter_le sound later
  constructor
  · rintro honest ⟨overdue, recent⟩
    have idle := honest next h (ServerSession.sent_of_overdue sound.placed stepped overdue)
    rw [shape] at idle
    exact absurd idle (Nat.not_le.mpr recent)
  · intro fresh other again sent
    rw [h, Option.some.injEq] at again
    subst again
    rw [shape]
    dsimp only
    rcases ServerSession.closesIdle_of_sent sound.placed stepped sent with zero | ⟨idleAt, phase, event, elapsed⟩ | late
    · omega
    · have due := sound.deadline idleAt phase
      rw [busyAfter_quiet phase (by rw [event]; rfl)]
      omega
    · exact Nat.not_lt.mp fun recent => fresh ⟨late, recent⟩

end Timed

theorem idle_timeout_iff (config : LoopConfig) (now : Nat) (shutdown : Bool) (inputs : List LoopInput) (t : Timed)
    (h : run (Timed.step config) (.start now shutdown) inputs = some t) :
    Guarded (Timed.step config) (Timed.Honest config) (.start now shutdown) inputs ↔
      Guarded (Timed.step config) (fun t input => ¬ t.Stale config input) (.start now shutdown) inputs := by
  have start : (Timed.start now shutdown).Sound config := ⟨rfl, Nat.le_refl _, nofun⟩
  have agree : ∀ (t : Timed) (input : LoopInput) (next : Timed), t.Sound config → t.step config input = some next →
      (t.Honest config input ↔ ¬ t.Stale config input) := fun t input next => Timed.honest_iff
  exact guarded_congr (Timed.step_sound config) agree start h

def at_ (now : Nat) (event : LoopEvent) : LoopInput := ⟨event, now, [], .ok ()⟩

/-- A request from 2 to `ended`; the idle timeout is 50. -/
def requestUntil (ended : Nat) : List LoopInput :=
  [at_ 1 (.frame (.ok (.clientHello 1 0))), at_ 2 (.frame (.ok (.openRequest 0x01 0x01 [127, 0, 0, 1] 80))),
   at_ 3 (.connected (.ok ())), at_ 4 (.target (.ok [])), at_ ended (.frame (.ok (.endRequest 0)))]

theorem idle_timeout_short :
    ∃ t, run (Timed.step ⟨10, 1000, 50⟩) (.start 0 false) (requestUntil 20 ++ [at_ 70 .idleSleep]) = some t ∧
      idleClose ∈ t.session.sent ∧
      Guarded (Timed.step ⟨10, 1000, 50⟩) (Timed.Honest ⟨10, 1000, 50⟩) (.start 0 false)
        (requestUntil 20 ++ [at_ 70 .idleSleep]) := by
  have ran : (run (Timed.step ⟨10, 1000, 50⟩) (.start 0 false) (requestUntil 20 ++ [at_ 70 .idleSleep])).map
      (fun t => t.session.sent) = some [idleClose] := by decide +kernel
  obtain ⟨t, ran, sent⟩ := Option.map_eq_some_iff.mp ran
  refine ⟨t, ran, ?_, ?_⟩
  · rw [sent]
    exact List.mem_singleton_self _
  · exact (idle_timeout_iff ⟨10, 1000, 50⟩ 0 false _ t ran).mpr (by decide +kernel)

/-- A request that lasts longer than the timeout is followed by a Close frame for idleness at once; one
that does not, by such a frame when the watch channel is sent to, 25 later. -/
theorem idle_timeout_stale :
    (∃ t, run (Timed.step ⟨10, 1000, 50⟩) (.start 0 false) (requestUntil 60) = some t ∧
      idleClose ∈ t.session.sent ∧ t.clock = 60 ∧ t.busyAt = 60) ∧
    ∃ t, run (Timed.step ⟨10, 1000, 50⟩) (.start 0 false)
        (requestUntil 30 ++ [at_ 55 (.sendShutdown false), at_ 55 .shutdownChanged]) = some t ∧
      idleClose ∈ t.session.sent ∧ t.clock = 55 ∧ t.busyAt = 30 := by
  have long : (run (Timed.step ⟨10, 1000, 50⟩) (.start 0 false) (requestUntil 60)).map
      (fun t => (t.session.sent, t.clock, t.busyAt)) = some ([idleClose], 60, 60) := by decide +kernel
  have woken : (run (Timed.step ⟨10, 1000, 50⟩) (.start 0 false)
      (requestUntil 30 ++ [at_ 55 (.sendShutdown false), at_ 55 .shutdownChanged])).map
        (fun t => (t.session.sent, t.clock, t.busyAt)) = some ([idleClose], 55, 30) := by decide +kernel
  obtain ⟨t, long, sent⟩ := Option.map_eq_some_iff.mp long
  obtain ⟨u, woken, sent'⟩ := Option.map_eq_some_iff.mp woken
  simp only [Prod.mk.injEq] at sent sent'
  obtain ⟨sent, clock, busy⟩ := sent
  obtain ⟨sent', clock', busy'⟩ := sent'
  refine ⟨⟨t, long, ?_, clock, busy⟩, u, woken, ?_, clock', busy'⟩
  · rw [sent]
    exact List.mem_singleton_self _
  · rw [sent']
    exact List.mem_singleton_self _

end NoisyShuttle.Shuttle
