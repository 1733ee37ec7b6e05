import NoisyShuttle.Shuttle.Idle

/-!
# The limits of a session

What `max_requests`, `max_age` and the shutdown of the server bound over a whole session. The loop looks at
them at its head and at the end of a relay, never while it waits.
-/

namespace NoisyShuttle.Shuttle
open Session
open Tunnel (IoError)

namespace ServerSession

/-! ## What the loop has looked at when it waits -/

structure Kept (s t : ServerSession) : Prop where
  shutdown : t.shutdown = s.shutdown
  created : t.ctx.createdAt = s.ctx.createdAt

/-- If the loop waits, it has just found itself neither shut down nor at a limit. -/
def Looked (config : LoopConfig) (now : Nat) (t : ServerSession) : Prop :=
  ∀ idleAt, t.phase = .waiting idleAt → t.shutdown = false ∧ expiredLimit config t.ctx now = none

variable {config : LoopConfig} {now : Nat} {s t u : ServerSession}

theorem Kept.refl : Kept s s := ⟨rfl, rfl⟩

theorem Kept.trans (first : Kept s t) (second : Kept t u) : Kept s u :=
  ⟨second.shutdown.trans first.shutdown, second.created.trans first.created⟩

theorem writeFrame_kept (frame : Frame) : Kept s (s.writeFrame frame).2 := by
  unfold writeFrame
  split <;> exact ⟨rfl, rfl⟩

theorem finishWith_kept {r : WriteResult × ServerSession} (kept : Kept s r.2) : Kept s (finishWith r) := by
  rcases r with ⟨_ | _ | _, t⟩ <;> exact ⟨kept.shutdown, kept.created⟩

theorem finishWith_looked (r : WriteResult × ServerSession) : (finishWith r).Looked config now := by
  intro idleAt waiting
  rcases r with ⟨_ | _ | _, t⟩ <;> cases waiting

theorem close_kept (reason : CloseReason) : Kept s (s.close reason).2 := by
  have closing : Kept s (s.setState .closing) := ⟨rfl, rfl⟩
  have written := closing.trans (writeFrame_kept (.close (closeReasonCode reason)))
  unfold close
  split
  · next done =>
    rw [done] at written
    exact ⟨written.shutdown, written.created⟩
  · next undone =>
    rw [undone] at written
    exact written

theorem reset_kept (reason : CloseReason) : Kept s (s.reset reason).2 := by
  have poisoned : Kept s (s.setState .poisoned) := ⟨rfl, rfl⟩
  exact poisoned.trans (writeFrame_kept _)

theorem gracefulShutdown_kept : Kept s s.gracefulShutdown.2 := by
  have draining : Kept s (s.setState .draining) := ⟨rfl, rfl⟩
  have closed := draining.trans (close_kept .shutdownDrain)
  unfold gracefulShutdown
  split
  · split
    · next stalled =>
      rw [stalled] at closed
      exact closed.trans (reset_kept _)
    · next outcome =>
      rw [outcome] at closed
      exact closed
  · exact .refl
  · exact .refl
  · exact close_kept _

/-- A part of a step that keeps the shutdown and the age, and does not wait unless it has looked. -/
def Checks (config : LoopConfig) (now : Nat) (s t : ServerSession) : Prop := Kept s t ∧ t.Looked config now

theorem Checks.after (checks : Checks config now t u) (kept : Kept s t) : Checks config now s u :=
  ⟨kept.trans checks.1, checks.2⟩

theorem finishWith_checks {r : WriteResult × ServerSession} (kept : Kept s r.2) :
    Checks config now s (finishWith r) :=
  ⟨finishWith_kept kept, finishWith_looked r⟩

theorem loopHead_checks : Checks config now s (s.loopHead config now) := by
  unfold loopHead
  split
  · exact finishWith_checks gracefulShutdown_kept
  · next up =>
    split
    · exact finishWith_checks (close_kept _)
    · next young =>
      refine ⟨⟨rfl, rfl⟩, ?_⟩
      intro idleAt waiting
      exact ⟨Bool.not_eq_true _ ▸ up, young⟩

theorem relayClosed_checks : Checks config now s (s.relayClosed config now) := by
  have idle : Kept s (s.setState .idle) := ⟨rfl, rfl⟩
  unfold relayClosed
  dsimp only
  split
  · exact (finishWith_checks (close_kept _)).after idle
  · split
    · exact (finishWith_checks (close_kept _)).after idle
    · exact loopHead_checks.after idle

theorem relayNext_checks (drainAt : Nat) (relay : ServerRelay) :
    Checks config now s (s.relayNext config now drainAt relay) := by
  unfold relayNext
  split
  · exact relayClosed_checks
  · refine ⟨⟨rfl, rfl⟩, ?_⟩
    intro idleAt waiting
    cases waiting

theorem relayFailed_checks : Checks config now s s.relayFailed := finishWith_checks (reset_kept _)

variable {input : LoopInput} {next : ServerSession}

theorem relayBranch_checks (drainAt : Nat) (branch : Branch ServerRelay) :
    Checks config input.now s (s.relayBranch config input drainAt branch) := by
  cases branch with
  | send frame relay =>
    have written := writeFrame_kept (s := s) frame
    simp only [relayBranch]
    split
    · next done =>
      rw [done] at written
      exact (relayNext_checks drainAt relay).after written
    · next failed =>
      rw [failed] at written
      exact relayFailed_checks.after written
    · next stalled =>
      rw [stalled] at written
      refine ⟨⟨written.shutdown, written.created⟩, ?_⟩
      intro idleAt waiting
      cases waiting
  | deliver bytes relay =>
    simp only [relayBranch]
    split
    · exact relayNext_checks drainAt relay
    · exact relayFailed_checks
  | halfClose relay => exact relayNext_checks drainAt relay
  | proceed relay => exact relayNext_checks drainAt relay
  | finish result => exact relayFailed_checks

theorem negotiateFrame_checks (frame : Except FrameError Frame) :
    Checks config now s (s.negotiateFrame config now frame) := by
  unfold negotiateFrame
  split
  · split
    · rw [serveLoop_idle]
      · exact loopHead_checks.after ⟨rfl, rfl⟩
      · rfl
    · exact finishWith_checks (close_kept _)
  · exact finishWith_checks (reset_kept _)
  · exact finishWith_checks (reset_kept _)

theorem negotiating_checks {watching : Bool} (h : s.negotiating config input watching = some next) :
    Checks config input.now s next := by
  unfold negotiating at h
  split at h
  · cases h
    exact negotiateFrame_checks _
  · split at h
    · split at h
      · cases h
        exact finishWith_checks (close_kept _)
      · cases h
        refine ⟨⟨rfl, rfl⟩, ?_⟩
        intro idleAt waiting
        cases waiting
    · cases h
  · cases h

theorem handleFrame_checks (frame : Frame) : Checks config now s (s.handleFrame config now frame) := by
  cases frame with
  | openRequest cmd atyp addr port =>
    simp only [handleFrame]
    split
    · exact relayFailed_checks.after ⟨rfl, rfl⟩
    · refine ⟨⟨rfl, rfl⟩, ?_⟩
      intro idleAt waiting
      cases waiting
  | ping token =>
    have written := writeFrame_kept (s := s) (.pong token)
    simp only [handleFrame]
    split
    · next done =>
      rw [done] at written
      exact loopHead_checks.after written
    · next undone =>
      rw [undone] at written
      exact finishWith_checks written
  | close reason => exact finishWith_checks (close_kept _)
  | _ => exact finishWith_checks (reset_kept _)

theorem waiting_checks {idleAt : Nat} (h : s.waiting config input idleAt = some next) :
    Checks config input.now s next := by
  unfold waiting at h
  split at h
  · cases h
    exact (handleFrame_checks _).after ⟨rfl, rfl⟩
  · cases h
    exact finishWith_checks (reset_kept _)
  · split at h
    · dsimp only at h
      split at h
      · cases h
        exact (finishWith_checks gracefulShutdown_kept).after ⟨rfl, rfl⟩
      · cases h
        exact loopHead_checks.after ⟨rfl, rfl⟩
    · cases h
  · split at h
    · cases h
      exact finishWith_checks (close_kept _)
    · cases h
  · cases h

theorem connecting_checks (h : s.connecting input = some next) : Checks config input.now s next := by
  unfold connecting at h
  split at h
  · cases h
    refine ⟨⟨rfl, rfl⟩, ?_⟩
    intro idleAt waiting
    cases waiting
  · cases h
    exact relayFailed_checks
  · cases h

theorem relaying_checks {relay : ServerRelay} {drainAt : Nat} (h : s.relaying config input relay drainAt = some next) :
    Checks config input.now s next := by
  unfold relaying at h
  split at h
  · split at h
    · cases h
    · cases h
      exact relayBranch_checks _ _
  · split at h
    · cases h
    · cases h
      exact relayBranch_checks _ _
  · split at h
    · cases h
    · cases h
      exact (relayBranch_checks _ _).after ⟨rfl, rfl⟩
  · split at h
    · cases h
      exact relayBranch_checks _ _
    · cases h
  · cases h

theorem step_checks (h : s.step config input = some next) :
    (∃ value, input.event = .sendShutdown value ∧ next.shutdown = value ∧ next.phase = s.phase ∧ next.ctx = s.ctx) ∨
      Checks config input.now s next := by
  have begun : Kept s (s.begin input) := ⟨rfl, rfl⟩
  rcases step_cases h with ⟨value, event, rfl⟩ | ⟨watching, phase, h⟩ | ⟨idleAt, phase, h⟩ | ⟨phase, h⟩ |
    ⟨relay, drainAt, phase, h⟩
  · exact Or.inl ⟨value, event, rfl, rfl, rfl⟩
  · exact Or.inr ((negotiating_checks h).after begun)
  · exact Or.inr ((waiting_checks h).after begun)
  · exact Or.inr ((connecting_checks h).after begun)
  · exact Or.inr ((relaying_checks h).after begun)

/-! ## Requests that are opened -/

/-- The timers are polled in time: while the loop waits, nothing comes in after its idle timeout. -/
def onTime (s : ServerSession) (input : LoopInput) : Bool :=
  decide (s.ctx.createdAt ≤ input.now) &&
    match s.phase with
    | .waiting idleAt => decide (input.now ≤ idleAt)
    | _ => true

/-- The requests that are opened while the server is shut down. -/
def opensInShutdown (s : ServerSession) (input : LoopInput) : Nat := if s.shutdown then s.opens input else 0

theorem opens_cases (s : ServerSession) (input : LoopInput) :
    s.opens input = 0 ∨
      s.opens input = 1 ∧ (∃ idleAt, s.phase = .waiting idleAt) ∧ ∀ value, input.event ≠ .sendShutdown value := by
  unfold opens
  split
  · next idleAt cmd atyp addr port phase event =>
    refine Or.inr ⟨rfl, ⟨idleAt, phase⟩, ?_⟩
    intro value sends
    rw [event] at sends
    cases sends
  · exact Or.inl rfl

theorem onTime_iff : s.onTime input = true ↔
    s.ctx.createdAt ≤ input.now ∧ ∀ idleAt, s.phase = .waiting idleAt → input.now ≤ idleAt := by
  unfold onTime
  rw [Bool.and_eq_true, decide_eq_true_iff]
  apply and_congr_right
  intro _
  cases phase : s.phase with
  | waiting idleAt =>
    dsimp only
    rw [decide_eq_true_iff]
    constructor
    · intro due other same
      cases same
      exact due
    · intro due
      exact due idleAt rfl
  | _ =>
    constructor
    · intro _ idleAt same
      cases same
    · intro _
      rfl

theorem limits_of_young {ctx : SessionContext} (young : expiredLimit config ctx now = none) :
    ctx.requestCount < config.maxRequests ∧ (ctx.createdAt ≤ now → now < ctx.createdAt + config.maxAge) := by
  unfold expiredLimit at young
  split at young
  · cases young
  next few =>
  split at young
  · cases young
  next fresh =>
  refine ⟨Nat.not_le.mp few, ?_⟩
  intro past
  unfold elapsedAtLeast at fresh
  rw [decide_eq_true_iff, not_and] at fresh
  have short := fresh past
  omega

/-! ## Whole sessions -/

structure Counted (config : LoopConfig) (n : Nat) (s : ServerSession) : Prop where
  placed : s.Placed
  count : s.ctx.requestCount = n
  bound : n ≤ config.maxRequests
  room : ∀ idleAt, s.phase = .waiting idleAt → n < config.maxRequests

theorem step_counted (config : LoopConfig) (n : Nat) (s : ServerSession) (input : LoopInput) (next : ServerSession)
    (counted : Counted config n s) (h : s.step config input = some next) :
    Counted config (n + s.opens input) next := by
  have advanced := step_advanced counted.placed h
  have bound : n + s.opens input ≤ config.maxRequests := by
    rcases opens_cases s input with none | ⟨one, ⟨idleAt, phase⟩, -⟩
    · have before := counted.bound
      omega
    · have room := counted.room idleAt phase
      omega
  have count : next.ctx.requestCount = n + s.opens input := by
    rw [advanced.count, counted.count]
  refine ⟨advanced.placed, count, bound, ?_⟩
  intro idleAt waiting
  rcases step_checks h with ⟨value, event, -, phase, -⟩ | ⟨-, looked⟩
  · have none : s.opens input = 0 := by
      rcases opens_cases s input with none | ⟨-, -, other⟩
      · exact none
      · exact absurd event (other value)
    rw [none]
    exact counted.room idleAt (phase.symm.trans waiting)
  · have few := (limits_of_young (looked idleAt waiting).2).1
    rwa [count] at few

structure Aged (config : LoopConfig) (created : Nat) (s : ServerSession) : Prop where
  placed : s.Placed
  since : s.ctx.createdAt = created
  due : ∀ idleAt, s.phase = .waiting idleAt → idleAt < created + config.maxAge + config.idleTimeout

theorem step_aged {created : Nat} (aged : Aged config created s) (timely : s.onTime input = true)
    (h : s.step config input = some next) : Aged config created next := by
  obtain ⟨past, -⟩ := onTime_iff.mp timely
  have placed := (step_advanced aged.placed h).placed
  rcases step_checks h with ⟨value, event, -, phase, same⟩ | ⟨kept, looked⟩
  · refine ⟨placed, ?_, ?_⟩
    · rw [same, aged.since]
    · intro idleAt waiting
      exact aged.due idleAt (phase.symm.trans waiting)
  · have same := kept.created.trans aged.since
    refine ⟨placed, same, ?_⟩
    intro idleAt waiting
    rcases step_waits aged.placed h waiting with rfl | ⟨-, before⟩
    · have fresh := (limits_of_young (looked _ waiting).2).2
      rw [same] at fresh
      rw [aged.since] at past
      have young := fresh past
      omega
    · exact aged.due idleAt before

/-- At most one request was opened in shutdown, and the loop has not waited since. -/
structure Spent (n : Nat) (s : ServerSession) : Prop where
  once : n ≤ 1
  last : n = 1 → s.shutdown = true ∧ ∀ idleAt, s.phase ≠ .waiting idleAt

theorem step_spent {n : Nat} (spent : Spent n s) (stands : input.event ≠ .sendShutdown false)
    (h : s.step config input = some next) : Spent (n + s.opensInShutdown input) next := by
  rcases step_checks h with ⟨value, event, shutdown, phase, -⟩ | ⟨kept, looked⟩
  · have none : s.opensInShutdown input = 0 := by
      unfold opensInShutdown
      rcases opens_cases s input with none | ⟨-, -, other⟩
      · rw [none, ite_self]
      · exact absurd event (other value)
    rw [none]
    refine ⟨spent.once, ?_⟩
    intro one
    refine ⟨?_, phase ▸ (spent.last one).2⟩
    cases value with
    | false => exact absurd event stands
    | true => exact shutdown
  · -- a loop that waits again has seen that the server is not shut down
    have leaves : s.shutdown = true → next.shutdown = true ∧ ∀ idleAt, next.phase ≠ .waiting idleAt := by
      intro down
      have still := kept.shutdown.trans down
      refine ⟨still, ?_⟩
      intro idleAt waiting
      rw [(looked idleAt waiting).1] at still
      cases still
    unfold opensInShutdown
    cases down : s.shutdown with
    | false =>
      refine ⟨spent.once, ?_⟩
      intro one
      rw [(spent.last one).1] at down
      cases down
    | true =>
      refine ⟨?_, fun _ => leaves down⟩
      rw [if_pos rfl]
      have once := spent.once
      rcases opens_cases s input with none | ⟨one, ⟨idleAt, phase⟩, -⟩
      · omega
      · have unspent : n ≠ 1 := fun spentOne => (spent.last spentOne).2 idleAt phase
        omega

end ServerSession

/-- Over a whole session, whatever its writes do: no more than `max_requests` requests are opened; if the
timers are polled in time each of them is opened before the session is older than `max_age` and one idle
timeout; and once the server is shut down for good at most one more is. -/
theorem session_limits (config : LoopConfig) (now : Nat) (shutdown : Bool) (inputs : List LoopInput)
    (s : ServerSession) (h : run (ServerSession.step config) (.start now shutdown) inputs = some s) :
    total (ServerSession.step config) ServerSession.opens (.start now shutdown) inputs ≤ config.maxRequests ∧
    (Guarded (ServerSession.step config) (fun s input => s.onTime input = true) (.start now shutdown) inputs →
      Guarded (ServerSession.step config)
        (fun s input => s.opens input ≠ 0 → input.now < now + config.maxAge + config.idleTimeout)
        (.start now shutdown) inputs) ∧
    ((∀ input ∈ inputs, input.event ≠ .sendShutdown false) →
      total (ServerSession.step config) ServerSession.opensInShutdown (.start now shutdown) inputs ≤ 1) := by
  refine ⟨?_, ?_, ?_⟩
  · have counted : ServerSession.Counted config 0 (.start now shutdown) :=
      ⟨rfl, rfl, Nat.zero_le _, fun _ waiting => by cases waiting⟩
    have after := total_invariant (ServerSession.step_counted config) counted h
    rw [Nat.zero_add] at after
    exact after.bound
  · intro timely
    have aged : ServerSession.Aged config now (.start now shutdown) :=
      ⟨rfl, rfl, fun _ waiting => by cases waiting⟩
    apply guarded_imp _ _ aged timely
    · intro s input next aged timely stepped
      exact ServerSession.step_aged aged timely stepped
    · intro s input aged timely opened
      rcases ServerSession.opens_cases s input with none | ⟨-, ⟨idleAt, phase⟩, -⟩
      · exact absurd none opened
      · have due := (ServerSession.onTime_iff.mp timely).2 idleAt phase
        have late := aged.due idleAt phase
        omega
  · intro stands
    have spent : ServerSession.Spent 0 (.start now shutdown) := ⟨Nat.zero_le _, fun one => by cases one⟩
    have guarded : Guarded (ServerSession.step config) (fun _ input => input.event ≠ .sendShutdown false)
        (.start now shutdown) inputs := guarded_of_forall stands _
    have preserve : ∀ n s input next, ServerSession.Spent n s → input.event ≠ .sendShutdown false →
        s.step config input = some next → ServerSession.Spent (n + s.opensInShutdown input) next := by
      intro n s input next spent stands stepped
      exact ServerSession.step_spent spent stands stepped
    have after := guarded_total preserve spent guarded h
    rw [Nat.zero_add] at after
    exact after.once

/-- A request from 2 to 8, and one at 13 that comes in before the loop sees the shutdown of 12. -/
def requestInShutdown : List LoopInput :=
  [at_ 1 (.frame (.ok (.clientHello 1 0))), at_ 2 (.frame (.ok (.openRequest 0x01 0x01 [127, 0, 0, 1] 80))),
   at_ 3 (.connected (.ok ())), at_ 4 (.target (.ok [])), at_ 8 (.frame (.ok (.endRequest 0))),
   at_ 12 (.sendShutdown true), at_ 13 (.frame (.ok (.openRequest 0x01 0x01 [127, 0, 0, 1] 80))),
   at_ 14 (.connected (.ok ()))]

/-- The second request is opened after `max_age`, in shutdown, and is the last that `max_requests` allows. -/
theorem session_limits_last :
    ∃ s, run (ServerSession.step ⟨2, 10, 7⟩) (.start 0 false) requestInShutdown = some s ∧
      total (ServerSession.step ⟨2, 10, 7⟩) ServerSession.opens (.start 0 false) requestInShutdown = 2 ∧
      Guarded (ServerSession.step ⟨2, 10, 7⟩) (fun s input => s.opens input ≠ 0 → input.now < 0 + 10 + 7)
        (.start 0 false) requestInShutdown ∧
      total (ServerSession.step ⟨2, 10, 7⟩) ServerSession.opensInShutdown (.start 0 false) requestInShutdown = 1 := by
  have ran : (run (ServerSession.step ⟨2, 10, 7⟩) (.start 0 false) requestInShutdown).isSome = true := by
    decide +kernel
  obtain ⟨s, ran⟩ := Option.isSome_iff_exists.mp ran
  obtain ⟨few, young, once⟩ := session_limits ⟨2, 10, 7⟩ 0 false requestInShutdown s ran
  have opened : 2 ≤ total (ServerSession.step ⟨2, 10, 7⟩) ServerSession.opens (.start 0 false) requestInShutdown := by
    decide +kernel
  have late : 1 ≤ total (ServerSession.step ⟨2, 10, 7⟩) ServerSession.opensInShutdown (.start 0 false)
      requestInShutdown := by
    decide +kernel
  exact ⟨s, ran, Nat.le_antisymm few opened, young (by decide +kernel),
    Nat.le_antisymm (once (by decide +kernel)) late⟩

end NoisyShuttle.Shuttle
