import NoisyShuttle.Shuttle.SessionLoop

/-!
# Negotiation on the live path

The client's `negotiate_client` against the `negotiate_frame` of the session loop.
-/

namespace NoisyShuttle.Shuttle
open Session
open Tunnel (IoError earlyEof)

/-- The server on the client's hello, up to the first wait of `serve_loop`. -/
def answerHello (config : LoopConfig) (created now : Nat) (shutdown : Bool) (writes : List WriteResult)
    (hello : Frame) : ServerSession :=
  { ServerSession.start created shutdown with writes := writes }.negotiateFrame config now (.ok hello)

def ServerSession.reply (s : ServerSession) : Option (Except FrameError Frame) :=
  match s.sent, s.phase with
  | frame :: _, _ => some (.ok frame)
  | [], .finished _ => some (.error (.io earlyEof))
  | [], _ => none

/-- The client has a reusable session exactly when the server is idle, and an error otherwise. -/
def Agreed (client : Except NegotiationError NegotiatedCapabilities) (server : SessionState) : Prop :=
  match client with
  | .ok caps => caps.reuse = true ∧ server = .idle
  | .error _ => server ≠ .idle

namespace ServerSession

@[simp] theorem finishWith_ctx (r : WriteResult × ServerSession) : (finishWith r).ctx = r.2.ctx := by
  rcases r with ⟨_ | _ | _, s⟩ <;> rfl

@[simp] theorem finishWith_sent (r : WriteResult × ServerSession) : (finishWith r).sent = r.2.sent := by
  rcases r with ⟨_ | _ | _, s⟩ <;> rfl

theorem close_state (reason : CloseReason) (s : ServerSession) :
    (s.close reason).2.ctx.state = .closing ∨ (s.close reason).2.ctx.state = .closed := by
  have ctx := writeFrame_ctx (s := s.setState .closing) (.close (closeReasonCode reason))
  unfold close
  split
  · exact .inr rfl
  · next written =>
    rw [written] at ctx
    exact .inl (by rw [ctx]; rfl)

theorem close_sent (reason : CloseReason) (s : ServerSession) :
    (s.close reason).2.sent = s.sent ∨
      (s.close reason).2.sent = s.sent ++ [.close (closeReasonCode reason)] := by
  rw [close_sends]
  split
  · exact .inr rfl
  · exact .inl (List.append_nil _)

end ServerSession

theorem agreed_close (version : UInt8) (caps : Capabilities) (reason : CloseReason) {s : ServerSession}
    (fresh : s.sent = []) :
    Agreed (negotiateClient version caps (ServerSession.finishWith (s.close reason)).reply)
      (ServerSession.finishWith (s.close reason)).ctx.state := by
  have state : (ServerSession.finishWith (s.close reason)).ctx.state ≠ .idle := by
    rw [ServerSession.finishWith_ctx]
    rcases s.close_state reason with closing | closed
    · simp [closing]
    · simp [closed]
  have sent := s.close_sent reason
  rw [fresh, List.nil_append] at sent
  have silent : ∃ err, negotiateClient version caps (ServerSession.finishWith (s.close reason)).reply =
      .error err := by
    unfold ServerSession.reply
    rw [ServerSession.finishWith_sent]
    rcases sent with none | one
    · rw [none]
      split
      · next h => cases h
      · exact ⟨_, rfl⟩
      · exact ⟨_, rfl⟩
    · rw [one]
      exact ⟨_, rfl⟩
  obtain ⟨err, failed⟩ := silent
  rw [failed]
  exact state

theorem answerHello_accepted (config : LoopConfig) (created now : Nat) (shutdown : Bool)
    (writes : List WriteResult) (caps : Capabilities) :
    answerHello config created now shutdown writes (clientHello protocolVersion caps) =
      ServerSession.loopHead config now
        ⟨⟨.idle, 0, created, now⟩, .negotiating true, shutdown, false, false, writes, [], [.idle]⟩ := rfl

theorem answerHello_refused (config : LoopConfig) (created now : Nat) (shutdown : Bool)
    (writes : List WriteResult) {version : UInt8} (refused : version ≠ protocolVersion) (caps : Capabilities) :
    answerHello config created now shutdown writes (clientHello version caps) =
      ServerSession.finishWith
        ({ ServerSession.start created shutdown with writes := writes }.close .versionMismatch) :=
  if_neg refused

/-- The two sides agree exactly when the server closes the session at once: it sends no hello of its
own, so a client it accepts waits in vain. -/
theorem negotiation_agrees_iff (config : LoopConfig) (created now : Nat) (shutdown : Bool)
    (writes : List WriteResult) (version : UInt8) (caps : Capabilities) :
    Agreed
      (negotiateClient version caps
        (answerHello config created now shutdown writes (clientHello version caps)).reply)
      (answerHello config created now shutdown writes (clientHello version caps)).ctx.state ↔
    version ≠ protocolVersion ∨ shutdown = true ∨
      (expiredLimit config ⟨.idle, 0, created, now⟩ now).isSome = true := by
  by_cases compatible : version = protocolVersion
  · subst compatible
    rw [answerHello_accepted, ServerSession.loopHead]
    dsimp only
    cases shutdown with
    | true =>
      rw [if_pos rfl]
      exact ⟨fun _ => .inr (.inl rfl), fun _ => agreed_close protocolVersion caps .shutdownDrain rfl⟩
    | false =>
      rw [if_neg Bool.false_ne_true]
      cases expired : expiredLimit config ⟨.idle, 0, created, now⟩ now with
      | some reason => exact ⟨fun _ => .inr (.inr rfl), fun _ => agreed_close protocolVersion caps reason rfl⟩
      | none =>
        -- the server waits as idle, and the client has run into its timeout
        constructor
        · intro agreed
          exact absurd rfl agreed
        · rintro (different | down | limit)
          · exact absurd rfl different
          · cases down
          · cases limit
  · rw [answerHello_refused config created now shutdown writes compatible]
    exact ⟨fun _ => .inl compatible, fun _ => agreed_close version caps .versionMismatch rfl⟩

def defaultLoopConfig : LoopConfig := ⟨100, 1800, 300⟩

/-- The client of the repository and the server it ships with: the server is idle, the client gives up. -/
theorem negotiation_unanswered :
    (answerHello defaultLoopConfig 0 0 false [] (clientHello protocolVersion capReuse)).ctx.state = .idle ∧
    negotiateClient protocolVersion capReuse
      (answerHello defaultLoopConfig 0 0 false [] (clientHello protocolVersion capReuse)).reply =
        .error .noResponse ∧
    ¬ Agreed (.error .noResponse) .idle := by
  refine ⟨by decide +kernel, by decide +kernel, ?_⟩
  intro agreed
  exact agreed rfl

end NoisyShuttle.Shuttle
