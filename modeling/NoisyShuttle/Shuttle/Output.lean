import NoisyShuttle.Lib.Output
import NoisyShuttle.Shuttle.Conformance

/-!
# What a server session writes

The language of the frames a session loop writes, and the words of it that belong to each phase. All
writes to the session succeed; the target, the client, the timers and the shutdown do as they like.
-/

namespace NoisyShuttle.Shuttle.Output
open Session
open Tunnel (IoError)
open scoped Computability

/-! ## The language -/

def pong : Language Frame := letter fun frame => ∃ token, frame = .pong token
def data : Language Frame := letter fun frame => ∃ bytes, frame = .data bytes
def endRequest : Language Frame := letter fun frame => ∃ reason, frame = .endRequest reason
def terminal : Language Frame := letter fun frame => ∃ reason, frame = .close reason ∨ frame = .reset reason

def request : Language Frame := (data + pong)∗ * endRequest * pong∗
def partialRequest : Language Frame := prefixes request
def rounds : Language Frame := (pong + request)∗
def unfinished : Language Frame := rounds * (1 + partialRequest)
def output : Language Frame := unfinished * terminal

/-- All frames that a run writes. -/
def framesWritten (config : LoopConfig) (s : ServerSession) (inputs : List LoopInput) : List Frame :=
  collect (ServerSession.step config) ServerSession.sent s inputs

def pongToken : Frame → Option UInt32
  | .pong token => some token
  | _ => none

def pingToken (input : LoopInput) : Option UInt32 :=
  match input.event with
  | .frame (.ok (.ping token)) => some token
  | _ => none

/-- What has been written within a request, before and after the target's end. -/
def relayed (targetEnded : Bool) : Language Frame :=
  if targetEnded then rounds * request else rounds * (data + pong)∗

/-- What has been written when the loop is in the phase. -/
def said : Phase → Language Frame
  | .negotiating _ | .waiting _ | .connecting => rounds
  | .relaying relay _ => relayed relay.targetEnded
  | .finished (.ok ()) => output
  | .finished (.error _) | .stalled => 0

theorem nil_mem_rounds : [] ∈ rounds := Language.nil_mem_kstar _

theorem rounds_mul_pong_le : rounds * pong ≤ rounds := by
  calc rounds * pong ≤ rounds * (pong + request) := mul_le_mul_right le_self_add _
    _ ≤ rounds := kstar_mul_le_kstar

theorem rounds_mul_request_le : rounds * request ≤ rounds := by
  calc rounds * request ≤ rounds * (pong + request) := mul_le_mul_right le_add_self _
    _ ≤ rounds := kstar_mul_le_kstar

theorem body_mul_le {l : Language Frame} (h : l ≤ data + pong) :
    rounds * (data + pong)∗ * l ≤ rounds * (data + pong)∗ := by
  rw [mul_assoc]
  apply mul_le_mul_right
  calc (data + pong)∗ * l ≤ (data + pong)∗ * (data + pong) := mul_le_mul_right h _
    _ ≤ (data + pong)∗ := kstar_mul_le_kstar

theorem body_mul_endRequest_le : rounds * (data + pong)∗ * endRequest ≤ rounds * request := by
  rw [mul_assoc]
  apply mul_le_mul_right
  calc (data + pong)∗ * endRequest = (data + pong)∗ * endRequest * 1 := (mul_one _).symm
    _ ≤ request := mul_le_mul_right one_le_kstar _

theorem request_mul_pong_le : rounds * request * pong ≤ rounds * request := by
  rw [mul_assoc]
  apply mul_le_mul_right
  unfold request
  rw [mul_assoc]
  exact mul_le_mul_right kstar_mul_le_kstar _

theorem rounds_le_unfinished : rounds ≤ unfinished := by
  calc rounds = rounds * 1 := (mul_one _).symm
    _ ≤ unfinished := mul_le_mul_right le_self_add _

theorem body_le_partialRequest : (data + pong)∗ ≤ partialRequest := by
  intro w body
  have ended := append_letter_mem (p := fun frame => ∃ reason, frame = Frame.endRequest reason) body ⟨0, rfl⟩
  have whole := Language.append_mem_mul ended (Language.nil_mem_kstar pong)
  rw [List.append_nil] at whole
  exact mem_prefixes_of_append whole

theorem body_le_unfinished : rounds * (data + pong)∗ ≤ unfinished := by
  calc rounds * (data + pong)∗ ≤ rounds * partialRequest := mul_le_mul_right body_le_partialRequest _
    _ ≤ unfinished := mul_le_mul_right le_add_self _

theorem rounds_le_body : rounds ≤ rounds * (data + pong)∗ := by
  calc rounds = rounds * 1 := (mul_one _).symm
    _ ≤ rounds * (data + pong)∗ := mul_le_mul_right one_le_kstar _

theorem relayed_le_unfinished (targetEnded : Bool) : relayed targetEnded ≤ unfinished := by
  cases targetEnded with
  | true => exact rounds_mul_request_le.trans rounds_le_unfinished
  | false => exact body_le_unfinished

theorem relayed_mul_pong_le (targetEnded : Bool) (token : UInt32) :
    relayed targetEnded * letter (· = .pong token) ≤ relayed targetEnded := by
  have isPong : letter (· = Frame.pong token) ≤ pong := by
    rintro w ⟨_, rfl, rfl⟩
    exact ⟨_, ⟨token, rfl⟩, rfl⟩
  cases targetEnded with
  | true => exact (mul_le_mul_right isPong _).trans request_mul_pong_le
  | false => exact body_mul_le (isPong.trans le_add_self)

theorem relayed_mul_data_le (bytes : Bytes) : relayed false * letter (· = .data bytes) ≤ relayed false := by
  apply body_mul_le
  rintro w ⟨_, rfl, rfl⟩
  exact .inl ⟨_, ⟨bytes, rfl⟩, rfl⟩

theorem relayed_mul_endRequest_le (reason : UInt8) :
    relayed false * letter (· = .endRequest reason) ≤ relayed true := by
  have isEnd : letter (· = Frame.endRequest reason) ≤ endRequest := by
    rintro w ⟨_, rfl, rfl⟩
    exact ⟨_, ⟨reason, rfl⟩, rfl⟩
  exact (mul_le_mul_right isEnd _).trans body_mul_endRequest_le

theorem unfinished_le_prefixes : unfinished ≤ prefixes output := by
  intro w h
  have ended := append_letter_mem (p := fun frame => ∃ reason, frame = Frame.close reason ∨ frame = .reset reason) h
    ⟨0, .inl rfl⟩
  exact mem_prefixes_of_append ended

theorem said_le_prefixes (phase : Phase) : said phase ≤ prefixes output := by
  cases phase with
  | negotiating _ | waiting _ | connecting => exact rounds_le_unfinished.trans unfinished_le_prefixes
  | relaying relay _ => exact (relayed_le_unfinished relay.targetEnded).trans unfinished_le_prefixes
  | stalled => exact bot_le
  | finished result =>
    cases result with
    | error _ => exact bot_le
    | ok _ => exact le_prefixes output

/-! ## The loop keeps to it -/

/-- Within a step: what has been written belongs to `words`, and every ping so far has its pong. -/
structure Spoke (config : LoopConfig) (words : Language Frame) (pings : List UInt32) (written : List Frame)
    (s : ServerSession) : Prop where
  said : written ++ s.sent ∈ words
  answered : (written ++ s.sent).filterMap pongToken = pings
  within : s.ctx.requestCount ≤ config.maxRequests
  succeed : ∀ result ∈ s.writes, result = .done

/-- Between steps. Only a session that has ended can have left a ping without its pong. -/
structure Kept (config : LoopConfig) (pings : List UInt32) (written : List Frame) (s : ServerSession) : Prop where
  said : written ∈ said s.phase
  answered : written.filterMap pongToken = pings ∨
    s.phase = .finished (.ok ()) ∧ written.filterMap pongToken <+: pings
  within : s.ctx.requestCount ≤ config.maxRequests
  room : ∀ idleAt, s.phase = .waiting idleAt → s.ctx.requestCount < config.maxRequests ∧ s.ctx.state = .idle

section
variable {config : LoopConfig} {words : Language Frame} {pings : List UInt32} {written : List Frame}
  {s next : ServerSession}

theorem Spoke.mono {more : Language Frame} (h : Spoke config words pings written s) (le : words ≤ more) :
    Spoke config more pings written s :=
  ⟨le h.said, h.answered, h.within, h.succeed⟩

theorem Spoke.same (h : Spoke config words pings written s) (sent : next.sent = s.sent)
    (count : next.ctx.requestCount = s.ctx.requestCount) (writes : next.writes = s.writes) :
    Spoke config words pings written next := by
  refine ⟨?_, ?_, ?_, ?_⟩
  · rw [sent]
    exact h.said
  · rw [sent]
    exact h.answered
  · rw [count]
    exact h.within
  · rw [writes]
    exact h.succeed

theorem Kept.lag {more : List UInt32} (h : Kept config pings written s) (ended : s.phase = .finished (.ok ()))
    (le : pings <+: more) : Kept config more written s := by
  have behind : written.filterMap pongToken <+: pings := by
    rcases h.answered with all | ⟨_, some⟩
    · exact all ▸ List.prefix_rfl
    · exact some
  exact ⟨h.said, .inr ⟨ended, behind.trans le⟩, h.within, h.room⟩

theorem writeFrame_done (succeed : ∀ result ∈ s.writes, result = .done) (frame : Frame) :
    s.writeFrame frame = (.done, { s with sent := s.sent ++ [frame], writes := s.writes.tail }) := by
  unfold ServerSession.writeFrame
  cases outcomes : s.writes with
  | nil => rfl
  | cons first rest =>
    have done : first = .done := succeed first (by simp [outcomes])
    subst done
    rfl

theorem Spoke.write {frame : Frame} (h : Spoke config words pings written s) {more : Language Frame}
    (grows : words * letter (· = frame) ≤ more) :
    Spoke config more (pings ++ (pongToken frame).toList) written
      { s with sent := s.sent ++ [frame], writes := s.writes.tail } := by
  have longer : written ++ (s.sent ++ [frame]) = written ++ s.sent ++ [frame] := (List.append_assoc ..).symm
  refine ⟨?_, ?_, h.within, fun result later => h.succeed result (List.mem_of_mem_tail later)⟩
  · rw [longer]
    exact grows (append_letter_mem h.said rfl)
  · rw [longer, List.filterMap_append, h.answered]
    cases token : pongToken frame <;> simp [token]

/-- A session that has written its last frame. -/
theorem Spoke.finish {frame : Frame} (h : Spoke config words pings written s) (open_ : words ≤ unfinished)
    (last : ∃ reason, frame = .close reason ∨ frame = .reset reason) (phase : next.phase = .finished (.ok ()))
    (sent : next.sent = s.sent ++ [frame]) (count : next.ctx.requestCount = s.ctx.requestCount) :
    Kept config pings (written ++ next.sent) next := by
  have quiet : pongToken frame = none := by
    obtain ⟨reason, rfl | rfl⟩ := last <;> rfl
  have terminated : words * letter (· = frame) ≤ output := by
    apply mul_le_mul' open_
    rintro w ⟨_, rfl, rfl⟩
    exact ⟨_, last, rfl⟩
  have wrote := h.write terminated
  rw [quiet] at wrote
  refine ⟨?_, .inl ?_, ?_, ?_⟩
  · rw [phase, sent]
    exact wrote.said
  · rw [sent]
    simpa using wrote.answered
  · rw [count]
    exact h.within
  · intro idleAt waiting
    rw [phase] at waiting
    cases waiting

theorem close_kept (h : Spoke config words pings written s) (open_ : words ≤ unfinished) (reason : CloseReason) :
    Kept config pings (written ++ (ServerSession.finishWith (s.close reason)).sent)
      (ServerSession.finishWith (s.close reason)) := by
  have succeed : ∀ result ∈ (s.setState .closing).writes, result = .done := h.succeed
  unfold ServerSession.close
  rw [writeFrame_done succeed]
  exact h.finish open_ ⟨_, .inl rfl⟩ rfl rfl rfl

theorem reset_kept (h : Spoke config words pings written s) (open_ : words ≤ unfinished) (reason : CloseReason) :
    Kept config pings (written ++ (ServerSession.finishWith (s.reset reason)).sent)
      (ServerSession.finishWith (s.reset reason)) := by
  have succeed : ∀ result ∈ (s.setState .poisoned).writes, result = .done := h.succeed
  unfold ServerSession.reset
  rw [writeFrame_done succeed]
  exact h.finish open_ ⟨_, .inr rfl⟩ rfl rfl rfl

theorem requests_left {now : Nat} (young : expiredLimit config s.ctx now = none) :
    s.ctx.requestCount < config.maxRequests := by
  unfold expiredLimit at young
  split at young
  · cases young
  · omega

theorem loopHead_kept (h : Spoke config rounds pings written s) (idle : s.ctx.state = .idle) (now : Nat) :
    Kept config pings (written ++ (s.loopHead config now).sent) (s.loopHead config now) := by
  unfold ServerSession.loopHead
  split
  · rw [ServerSession.gracefulShutdown_idle idle]
    exact close_kept h rounds_le_unfinished _
  · split
    · exact close_kept h rounds_le_unfinished _
    · rename_i young
      exact ⟨h.said, .inl h.answered, h.within, fun _ _ => ⟨requests_left young, idle⟩⟩

theorem relayClosed_kept (h : Spoke config rounds pings written s) (now : Nat) :
    Kept config pings (written ++ (s.relayClosed config now).sent) (s.relayClosed config now) := by
  have idle : Spoke config rounds pings written (s.setState .idle) := h.same rfl rfl rfl
  unfold ServerSession.relayClosed
  dsimp only
  split
  · exact close_kept idle rounds_le_unfinished _
  · split
    · exact close_kept idle rounds_le_unfinished _
    · exact loopHead_kept idle rfl now

theorem relayNext_kept (relay : ServerRelay) (h : Spoke config (relayed relay.targetEnded) pings written s)
    (now drainAt : Nat) :
    Kept config pings (written ++ (s.relayNext config now drainAt relay).sent)
      (s.relayNext config now drainAt relay) := by
  unfold ServerSession.relayNext
  split
  · rename_i ended
    obtain ⟨_, targetEnded⟩ : relay.clientEnded = true ∧ relay.targetEnded = true := by
      simpa [ServerRelay.bothEnded] using ended
    rw [targetEnded] at h
    exact relayClosed_kept (h.mono rounds_mul_request_le) now
  · exact ⟨h.said, .inl h.answered, h.within, by rintro _ ⟨⟩⟩

/-- The branch writes what may be written next in a request. -/
def Fits (targetEnded : Bool) : Branch ServerRelay → Prop
  | .send frame next => relayed targetEnded * letter (· = frame) ≤ relayed next.targetEnded
  | .deliver _ next | .halfClose next | .proceed next => next.targetEnded = targetEnded
  | .finish _ => True

def branchTokens : Branch ServerRelay → List UInt32
  | .send frame _ => (pongToken frame).toList
  | _ => []

theorem frameRead_fits (relay : ServerRelay) (result : Except FrameError Frame) :
    Fits relay.targetEnded (relay.frameRead result) := by
  cases result with
  | error err => trivial
  | ok frame =>
    cases frame with
    | ping token => exact relayed_mul_pong_le _ token
    | data _ | endRequest _ => rfl
    | _ => trivial

theorem targetRead_fits {relay : ServerRelay} (running : relay.targetEnded = false) (read : Except IoError Bytes) :
    Fits relay.targetEnded (relay.targetRead read) := by
  rw [running]
  cases read with
  | error err => trivial
  | ok bytes =>
    cases bytes with
    | nil => exact relayed_mul_endRequest_le _
    | cons byte more =>
      have grows := relayed_mul_data_le (byte :: more)
      rwa [← running] at grows ⊢

theorem branchTokens_targetRead (relay : ServerRelay) (read : Except IoError Bytes) :
    branchTokens (relay.targetRead read) = [] := by
  cases read with
  | error err => rfl
  | ok bytes => cases bytes <;> rfl

theorem relayBranch_kept {targetEnded : Bool} {branch : Branch ServerRelay} (fits : Fits targetEnded branch)
    (h : Spoke config (relayed targetEnded) pings written s) (input : LoopInput) (drainAt : Nat) :
    Kept config (pings ++ branchTokens branch) (written ++ (s.relayBranch config input drainAt branch).sent)
      (s.relayBranch config input drainAt branch) := by
  have failed : Kept config pings (written ++ s.relayFailed.sent) s.relayFailed :=
    reset_kept h (relayed_le_unfinished targetEnded) _
  have goesOn : ∀ next : ServerRelay, next.targetEnded = targetEnded →
      Kept config pings (written ++ (s.relayNext config input.now drainAt next).sent)
        (s.relayNext config input.now drainAt next) := by
    intro next same
    exact relayNext_kept next (same ▸ h) input.now drainAt
  cases branch with
  | send frame next =>
    simp only [ServerSession.relayBranch, writeFrame_done h.succeed]
    exact relayNext_kept next (h.write fits) input.now drainAt
  | deliver bytes next =>
    simp only [ServerSession.relayBranch, branchTokens, List.append_nil]
    split
    · exact goesOn next fits
    · exact failed
  | halfClose next => simpa [ServerSession.relayBranch, branchTokens] using goesOn next fits
  | proceed next => simpa [ServerSession.relayBranch, branchTokens] using goesOn next fits
  | finish result => simpa [ServerSession.relayBranch, branchTokens] using failed

/-- A reset leaves the ping it answers, if it is one, without a pong. -/
theorem reset_kept_lagging (h : Spoke config words pings written s) (open_ : words ≤ unfinished) (reason : CloseReason)
    (tokens : List UInt32) :
    Kept config (pings ++ tokens) (written ++ (ServerSession.finishWith (s.reset reason)).sent)
      (ServerSession.finishWith (s.reset reason)) := by
  apply (reset_kept h open_ reason).lag _ (List.prefix_append _ _)
  have succeed : ∀ result ∈ (s.setState .poisoned).writes, result = .done := h.succeed
  unfold ServerSession.reset
  rw [writeFrame_done succeed]
  rfl

theorem negotiateFrame_kept (h : Spoke config rounds pings written s) (now : Nat) (result : Except FrameError Frame)
    {tokens : List UInt32} (hello : ∀ version caps, result = .ok (.clientHello version caps) → tokens = []) :
    Kept config (pings ++ tokens) (written ++ (s.negotiateFrame config now result).sent)
      (s.negotiateFrame config now result) := by
  have refused := fun reason => reset_kept_lagging h rounds_le_unfinished reason tokens
  cases result with
  | error err => exact refused _
  | ok frame =>
    cases frame with
    | clientHello version caps =>
      rw [hello version caps rfl, List.append_nil]
      unfold ServerSession.negotiateFrame
      dsimp only
      split
      · rw [ServerSession.serveLoop_idle]
        apply loopHead_kept
        · exact h.same rfl rfl rfl
        · rfl
        · rfl
      · exact close_kept h rounds_le_unfinished _
    | _ => exact refused _

variable {input : LoopInput}

theorem negotiating_kept {watching : Bool} (h : Spoke config rounds pings written s)
    (stepped : s.negotiating config input watching = some next) :
    Kept config (pings ++ (pingToken input).toList) (written ++ next.sent) next := by
  cases event : input.event with
  | frame result =>
    simp only [ServerSession.negotiating, event, Option.some.injEq] at stepped
    subst stepped
    apply negotiateFrame_kept h
    rintro version caps rfl
    simp [pingToken, event]
  | shutdownChanged =>
    simp only [ServerSession.negotiating, event] at stepped
    simp only [pingToken, event, Option.toList_none, List.append_nil]
    split at stepped
    · split at stepped
      · cases stepped
        exact close_kept h rounds_le_unfinished _
      · cases stepped
        exact ⟨h.said, .inl h.answered, h.within, by rintro _ ⟨⟩⟩
    · cases stepped
  | _ => simp [ServerSession.negotiating, event] at stepped

theorem handleFrame_kept (h : Spoke config rounds pings written s) (idle : s.ctx.state = .idle)
    (left : s.ctx.requestCount < config.maxRequests) (now : Nat) (frame : Frame) {tokens : List UInt32}
    (pinged : tokens = match frame with
      | .ping token => [token]
      | _ => []) :
    Kept config (pings ++ tokens) (written ++ (s.handleFrame config now frame).sent)
      (s.handleFrame config now frame) := by
  subst pinged
  cases frame with
  | openRequest cmd atyp addr port =>
    have opened : Spoke config rounds pings written
        { s.setState .active with ctx := { (s.setState .active).ctx with
          requestCount := s.ctx.requestCount + 1 } } := ⟨h.said, h.answered, left, h.succeed⟩
    rw [List.append_nil]
    unfold ServerSession.handleFrame
    dsimp only
    split
    · exact reset_kept opened rounds_le_unfinished _
    · exact ⟨h.said, .inl h.answered, left, by rintro _ ⟨⟩⟩
  | ping token =>
    have ponged : rounds * letter (· = Frame.pong token) ≤ rounds := by
      refine le_trans (mul_le_mul_right ?_ _) rounds_mul_pong_le
      rintro w ⟨_, rfl, rfl⟩
      exact ⟨_, ⟨token, rfl⟩, rfl⟩
    simp only [ServerSession.handleFrame, writeFrame_done h.succeed]
    exact loopHead_kept (h.write ponged) idle now
  | close reason =>
    rw [List.append_nil]
    exact close_kept h rounds_le_unfinished _
  | _ =>
    rw [List.append_nil]
    exact reset_kept h rounds_le_unfinished _

theorem waiting_kept {idleAt : Nat} (h : Spoke config rounds pings written s) (idle : s.ctx.state = .idle)
    (left : s.ctx.requestCount < config.maxRequests) (stepped : s.waiting config input idleAt = some next) :
    Kept config (pings ++ (pingToken input).toList) (written ++ next.sent) next := by
  cases event : input.event with
  | frame result =>
    cases result with
    | error err =>
      simp only [ServerSession.waiting, event, Option.some.injEq] at stepped
      subst stepped
      exact reset_kept_lagging h rounds_le_unfinished _ _
    | ok frame =>
      simp only [ServerSession.waiting, event, Option.some.injEq] at stepped
      subst stepped
      apply handleFrame_kept
      · exact h.same rfl rfl rfl
      · exact idle
      · exact left
      · cases frame <;> simp [pingToken, event]
  | shutdownChanged =>
    simp only [ServerSession.waiting, event] at stepped
    simp only [pingToken, event, Option.toList_none, List.append_nil]
    have seen : Spoke config rounds pings written { s with changed := false } := h.same rfl rfl rfl
    split at stepped
    · split at stepped
      · cases stepped
        rw [ServerSession.gracefulShutdown_idle]
        · exact close_kept seen rounds_le_unfinished _
        · exact idle
      · cases stepped
        exact loopHead_kept seen idle _
    · cases stepped
  | idleSleep =>
    simp only [ServerSession.waiting, event] at stepped
    simp only [pingToken, event, Option.toList_none, List.append_nil]
    split at stepped
    · cases stepped
      exact close_kept h rounds_le_unfinished _
    · cases stepped
  | _ => simp [ServerSession.waiting, event] at stepped

theorem connecting_kept (h : Spoke config rounds pings written s) (stepped : s.connecting input = some next) :
    Kept config (pings ++ (pingToken input).toList) (written ++ next.sent) next := by
  cases event : input.event with
  | connected result =>
    simp only [pingToken, event, Option.toList_none, List.append_nil]
    cases result with
    | ok _ =>
      simp only [ServerSession.connecting, event, Option.some.injEq] at stepped
      subst stepped
      exact ⟨rounds_le_body h.said, .inl h.answered, h.within, by rintro _ ⟨⟩⟩
    | error err =>
      simp only [ServerSession.connecting, event, Option.some.injEq] at stepped
      subst stepped
      exact reset_kept h rounds_le_unfinished _
  | _ => simp [ServerSession.connecting, event] at stepped

theorem relaying_kept {relay : ServerRelay} {drainAt : Nat}
    (h : Spoke config (relayed relay.targetEnded) pings written s)
    (stepped : s.relaying config input relay drainAt = some next) :
    Kept config (pings ++ (pingToken input).toList) (written ++ next.sent) next := by
  cases event : input.event with
  | frame result =>
    simp only [ServerSession.relaying, event] at stepped
    split at stepped
    · cases stepped
    · cases stepped
      have tokens : branchTokens (relay.frameRead result) = (pingToken input).toList := by
        cases result with
        | error err => simp [pingToken, event, ServerRelay.frameRead, branchTokens]
        | ok frame => cases frame <;> simp [pingToken, event, ServerRelay.frameRead, branchTokens, pongToken]
      rw [← tokens]
      exact relayBranch_kept (frameRead_fits relay result) h input drainAt
  | target read =>
    simp only [ServerSession.relaying, event] at stepped
    split at stepped
    · cases stepped
    · rename_i running
      cases stepped
      have tokens : branchTokens (relay.targetRead read) = (pingToken input).toList := by
        rw [branchTokens_targetRead]
        simp [pingToken, event]
      rw [← tokens]
      exact relayBranch_kept (targetRead_fits (by simpa using running) read) h input drainAt
  | shutdownChanged =>
    simp only [ServerSession.relaying, event] at stepped
    simp only [pingToken, event, Option.toList_none]
    split at stepped
    · cases stepped
    · cases stepped
      have fits : Fits relay.targetEnded (relay.shutdownChanged s.shutdown) := by
        unfold ServerRelay.shutdownChanged
        split <;> rfl
      apply relayBranch_kept fits
      exact h.same rfl rfl rfl
  | drainSleep =>
    simp only [ServerSession.relaying, event] at stepped
    simp only [pingToken, event, Option.toList_none]
    split at stepped
    · cases stepped
      have fits : Fits relay.targetEnded ServerRelay.drainTimeout := trivial
      exact relayBranch_kept fits h input drainAt
    · cases stepped
  | _ => simp [ServerSession.relaying, event] at stepped

theorem Kept.spoke (h : Kept config pings written s) (running : s.phase ≠ .finished (.ok ()))
    (succeed : ∀ result ∈ input.writes, result = .done) :
    Spoke config (Output.said s.phase) pings written (s.begin input) := by
  have answered : written.filterMap pongToken = pings := by
    rcases h.answered with all | ⟨ended, _⟩
    · exact all
    · exact (running ended).elim
  refine ⟨?_, ?_, h.within, succeed⟩
  · simpa [ServerSession.begin] using h.said
  · simpa [ServerSession.begin] using answered

theorem step_kept (h : Kept config pings written s) (succeed : ∀ result ∈ input.writes, result = .done)
    (stepped : s.step config input = some next) :
    Kept config (pings ++ (pingToken input).toList) (written ++ next.sent) next := by
  rcases ServerSession.step_cases stepped with ⟨value, event, rfl⟩ | ⟨watching, phase, stepped⟩ |
    ⟨idleAt, phase, stepped⟩ | ⟨phase, stepped⟩ | ⟨relay, drainAt, phase, stepped⟩
  · have silent : pingToken input = none := by
      unfold pingToken
      rw [event]
    simp only [silent, Option.toList_none, List.append_nil, ServerSession.begin]
    exact ⟨h.said, h.answered, h.within, h.room⟩
  · have spoke := h.spoke (by simp [phase]) succeed
    rw [phase] at spoke
    exact negotiating_kept spoke stepped
  · obtain ⟨left, idle⟩ := h.room idleAt phase
    have spoke := h.spoke (by simp [phase]) succeed
    rw [phase] at spoke
    exact waiting_kept spoke idle left stepped
  · have spoke := h.spoke (by simp [phase]) succeed
    rw [phase] at spoke
    exact connecting_kept spoke stepped
  · have spoke := h.spoke (by simp [phase]) succeed
    rw [phase] at spoke
    exact relaying_kept spoke stepped

theorem start_kept (config : LoopConfig) (now : Nat) (shutdown : Bool) :
    Kept config [] [] (.start now shutdown) :=
  ⟨nil_mem_rounds, .inl rfl, Nat.zero_le _, by rintro _ ⟨⟩⟩

theorem run_kept {now : Nat} {shutdown : Bool} {inputs : List LoopInput}
    (succeed : ∀ input ∈ inputs, ∀ result ∈ input.writes, result = .done)
    (h : run (ServerSession.step config) (.start now shutdown) inputs = some s) :
    Kept config (inputs.filterMap pingToken) (framesWritten config (.start now shutdown) inputs) s := by
  have preserve : ∀ (past : List LoopInput) (written : List Frame) (s : ServerSession) (input : LoopInput)
      (next : ServerSession), Kept config (past.filterMap pingToken) written s →
      (∀ result ∈ input.writes, result = .done) → s.step config input = some next →
      Kept config ((past ++ [input]).filterMap pingToken) (written ++ next.sent) next := by
    intro past written s input next kept done stepped
    have later := step_kept kept done stepped
    rw [List.filterMap_append]
    cases token : pingToken input <;> simpa [token] using later
  have start : Kept config (List.filterMap pingToken []) [] (.start now shutdown) := start_kept config now shutdown
  exact collect_invariant preserve start succeed h

theorem requestCount_run {now : Nat} {shutdown : Bool} {inputs : List LoopInput}
    (h : run (ServerSession.step config) (.start now shutdown) inputs = some s) :
    s.ctx.requestCount =
      total (ServerSession.step config) ServerSession.opens (.start now shutdown) inputs := by
  have preserve : ∀ (n : Nat) (s : ServerSession) (input : LoopInput) (next : ServerSession),
      (s.Placed ∧ s.ctx.requestCount = n) → s.step config input = some next →
      next.Placed ∧ next.ctx.requestCount = n + s.opens input := by
    rintro n s input next ⟨placed, rfl⟩ stepped
    have advanced := ServerSession.step_advanced placed stepped
    exact ⟨advanced.placed, advanced.count⟩
  have start : (ServerSession.start now shutdown).Placed ∧ (ServerSession.start now shutdown).ctx.requestCount = 0 :=
    ⟨rfl, rfl⟩
  have counted := total_invariant preserve start h
  rw [Nat.zero_add] at counted
  exact counted.2

end

/-- Whatever a session loop meets, what it has written is a beginning of a word of `output`, it has taken
no more requests than the configuration allows, and its pongs answer the first pings in their order. A
run that returns `Ok` has written a whole word. -/
theorem session_output (config : LoopConfig) (now : Nat) (shutdown : Bool) (inputs : List LoopInput)
    (s : ServerSession) (succeed : ∀ input ∈ inputs, ∀ result ∈ input.writes, result = .done)
    (h : run (ServerSession.step config) (.start now shutdown) inputs = some s) :
    framesWritten config (.start now shutdown) inputs ∈ prefixes output ∧
    total (ServerSession.step config) ServerSession.opens (.start now shutdown) inputs ≤ config.maxRequests ∧
    (framesWritten config (.start now shutdown) inputs).filterMap pongToken <+: inputs.filterMap pingToken ∧
    (s.phase = .finished (.ok ()) → framesWritten config (.start now shutdown) inputs ∈ output) := by
  have kept := run_kept succeed h
  refine ⟨said_le_prefixes s.phase kept.said, ?_, ?_, ?_⟩
  · rw [← requestCount_run h]
    exact kept.within
  · rcases kept.answered with all | ⟨_, some⟩
    · exact all ▸ List.prefix_rfl
    · exact some
  · intro ended
    have said := kept.said
    rwa [ended] at said

theorem session_output_one_request :
    [.pong 7, .data [5], .endRequest 0, .close (closeReasonCode .clientInitiated)] ∈ output := by
  have whole := session_output ⟨10, 100, 50⟩ 0 false
    [⟨.frame (.ok (.clientHello 1 0)), 1, [], .ok ()⟩, ⟨.frame (.ok (.ping 7)), 2, [.done], .ok ()⟩,
     ⟨.frame (.ok (.openRequest 0x01 0x01 [127, 0, 0, 1] 80)), 3, [], .ok ()⟩, ⟨.connected (.ok ()), 3, [], .ok ()⟩,
     ⟨.target (.ok [5]), 4, [], .ok ()⟩, ⟨.target (.ok []), 5, [], .ok ()⟩,
     ⟨.frame (.ok (.endRequest 0)), 6, [], .ok ()⟩, ⟨.frame (.ok (.close 1)), 7, [], .ok ()⟩]
    ⟨⟨.closed, 1, 0, 7⟩, .finished (.ok ()), false, false, false, [], [.close 1], [.closing, .closed]⟩
    (by decide +kernel) (by decide +kernel)
  exact whole.2.2.2 rfl

end NoisyShuttle.Shuttle.Output
