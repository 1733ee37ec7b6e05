import NoisyShuttle.Shuttle.SessionLoop

/-!
# What a turn of the session loop does to the requests

A step of `ServerSession` whose writes succeed, seen from the requests: it opens one, carries bytes of the
current one in either direction, ends it, or does none of these.
-/

namespace NoisyShuttle.Shuttle
open Session
open Tunnel (IoError)

structure Request where
  cmd : UInt8
  atyp : UInt8
  addr : Bytes
  port : UInt16
  deriving DecidableEq

/-- A request as one end sees it: the bytes towards the target, and those towards the application. -/
structure Dialogue where
  request : Request
  up : Bytes
  down : Bytes
  deriving DecidableEq

/-- The newest request comes first. -/
abbrev Log := List Dialogue

def addUp (bytes : Bytes) : Log → Log
  | [] => []
  | d :: earlier => { d with up := d.up ++ bytes } :: earlier

def addDown (bytes : Bytes) : Log → Log
  | [] => []
  | d :: earlier => { d with down := d.down ++ bytes } :: earlier

theorem addUp_nil (log : Log) : addUp [] log = log := by
  cases log with
  | nil => rfl
  | cons d earlier => simp [addUp]

/-- What the session loop does as it goes from a phase to the next: it opens a request, writes to the target or reads
from it. -/
def noted (phase : Phase) (event : LoopEvent) (next : Phase) (log : Log) : Log :=
  match phase, event, next with
  | .waiting _, .frame (.ok (.openRequest cmd atyp addr port)), .connecting =>
    ⟨⟨cmd, atyp, addr, port⟩, [], []⟩ :: log
  | .relaying relay _, .frame result, _ => addUp (relay.frameRead result).delivered log
  | .relaying _ _, .target (.ok bytes), _ => addDown bytes log
  | _, _, _ => log

/-! ## Frames and phases -/

def Asking (frame : Frame) : Prop :=
  (∃ cmd atyp addr port, frame = .openRequest cmd atyp addr port) ∨ (∃ bytes, frame = .data bytes) ∨
    ∃ reason, frame = .endRequest reason

def Parting (frame : Frame) : Prop := ∃ reason, frame = .close reason ∨ frame = .reset reason

/-- The server has a request whose target may still send. -/
def Phase.mid : Phase → Bool
  | .connecting => true
  | .relaying relay _ => !relay.targetEnded
  | _ => false

theorem Phase.not_mid_of_isOver {phase : Phase} (gone : phase.isOver = true) : phase.mid = false := by
  cases phase with
  | finished result => rfl
  | _ => cases gone

/-- Only a loop that is over has said good-bye. -/
def Quiet (phase : Phase) (frames : List Frame) : Prop :=
  frames = [] ∨ phase.isOver = true ∧ ∀ f ∈ frames, Parting f

theorem Quiet.eq_nil {phase : Phase} {frames : List Frame} (quiet : Quiet phase frames) (runs : phase.isOver = false) :
    frames = [] := by
  rcases quiet with empty | ⟨gone, -⟩
  · exact empty
  · rw [runs] at gone
    cases gone

/-- Everything that a turn of the session loop can do to the requests, with every write succeeding. -/
inductive Turn (phase : Phase) : LoopEvent → Phase → List Frame → Prop where
  | opened {cmd atyp addr port} :
      (∀ log, noted phase (.frame (.ok (.openRequest cmd atyp addr port))) .connecting log =
        ⟨⟨cmd, atyp, addr, port⟩, [], []⟩ :: log) →
      Turn phase (.frame (.ok (.openRequest cmd atyp addr port))) .connecting []
  | took {bytes next} :
      (∀ log, noted phase (.frame (.ok (.data bytes))) next log = addUp bytes log) → next.mid = phase.mid →
      Turn phase (.frame (.ok (.data bytes))) next []
  | answered {bytes next} :
      (∀ log, noted phase (.target (.ok bytes)) next log = addDown bytes log) → phase.mid = true →
      Turn phase (.target (.ok bytes)) next [.data bytes]
  | ended {reason next tail} :
      (∀ log, noted phase (.target (.ok [])) next log = addDown [] log) → phase.mid = true → next.mid = false →
      Quiet next tail → Turn phase (.target (.ok [])) next (.endRequest reason :: tail)
  | other {event next frames} :
      (∀ log, noted phase event next log = log) →
      (∀ frame, event = .frame (.ok frame) → next.isOver = true ∨ ∃ reason, frame = .endRequest reason) →
      (next.mid = true → phase.mid = true) → Quiet next frames → Turn phase event next frames

/-! ## Turns of the session loop -/

namespace ServerSession

/-- The loop leaves the session, or waits for the next request. -/
def Rests (s t : ServerSession) : Prop :=
  ∃ tail, t.sent = s.sent ++ tail ∧ Quiet t.phase tail ∧ t.phase.mid = false

def Leaves (s t : ServerSession) : Prop :=
  ∃ tail, t.sent = s.sent ++ tail ∧ (∀ f ∈ tail, Parting f) ∧ t.phase.isOver = true

variable {s t u : ServerSession} {config : LoopConfig} {now : Nat}

theorem Leaves.rests (leaves : s.Leaves t) : s.Rests t := by
  obtain ⟨tail, sent, parting, gone⟩ := leaves
  exact ⟨tail, sent, Or.inr ⟨gone, parting⟩, Phase.not_mid_of_isOver gone⟩

theorem close_leaves (writes : s.writes = []) (reason : CloseReason) : s.Leaves (finishWith (s.close reason)) := by
  have ready : (s.setState .closing).writes = [] := writes
  unfold close
  rw [writeFrame_nil ready]
  refine ⟨[.close (closeReasonCode reason)], rfl, ?_, rfl⟩
  intro f member
  exact ⟨_, Or.inl (List.mem_singleton.mp member)⟩

theorem reset_leaves (writes : s.writes = []) (reason : CloseReason) : s.Leaves (finishWith (s.reset reason)) := by
  have ready : (s.setState .poisoned).writes = [] := writes
  unfold reset
  rw [writeFrame_nil ready]
  refine ⟨[.reset (closeReasonCode reason)], rfl, ?_, rfl⟩
  intro f member
  exact ⟨_, Or.inr (List.mem_singleton.mp member)⟩

theorem gracefulShutdown_leaves (writes : s.writes = []) : s.Leaves (finishWith s.gracefulShutdown) := by
  have silent : s.Leaves (finishWith (.done, s)) := by
    refine ⟨[], (List.append_nil _).symm, ?_, rfl⟩
    intro f member
    cases member
  unfold gracefulShutdown
  split
  · have ready : ((s.setState .draining).setState .closing).writes = [] := writes
    unfold close
    rw [writeFrame_nil ready]
    refine ⟨[.close (closeReasonCode .shutdownDrain)], rfl, ?_, rfl⟩
    intro f member
    exact ⟨_, Or.inl (List.mem_singleton.mp member)⟩
  · exact silent
  · exact silent
  · exact close_leaves writes _

theorem loopHead_rests (writes : s.writes = []) : s.Rests (s.loopHead config now) := by
  unfold loopHead
  split
  · exact (gracefulShutdown_leaves writes).rests
  · split
    · exact (close_leaves writes _).rests
    · exact ⟨[], (List.append_nil _).symm, Or.inl rfl, rfl⟩

theorem relayClosed_rests (writes : s.writes = []) : s.Rests (s.relayClosed config now) := by
  have ready : (s.setState .idle).writes = [] := writes
  unfold relayClosed
  dsimp only
  split
  · exact (close_leaves ready _).rests
  · split
    · exact (close_leaves ready _).rests
    · exact loopHead_rests ready

/-- A turn that leaves the log alone and ends in a rest. -/
theorem Rests.turn {event : LoopEvent} {phase : Phase} (rests : u.Rests t) (fresh : u.sent = [])
    (silent : ∀ log, noted phase event t.phase log = log)
    (frames : ∀ frame, event = .frame (.ok frame) → t.phase.isOver = true ∨ ∃ reason, frame = .endRequest reason) :
    Turn phase event t.phase t.sent := by
  obtain ⟨tail, sent, quiet, calm⟩ := rests
  rw [sent, fresh, List.nil_append]
  refine .other silent frames ?_ quiet
  intro mid
  rw [calm] at mid
  cases mid

theorem Leaves.turn {event : LoopEvent} {phase : Phase} (leaves : u.Leaves t) (fresh : u.sent = [])
    (silent : ∀ log, noted phase event t.phase log = log) : Turn phase event t.phase t.sent := by
  obtain ⟨tail, -, -, gone⟩ := id leaves
  exact leaves.rests.turn fresh silent fun _ _ => Or.inl gone

theorem waiting_turn {event : LoopEvent} {idleAt : Nat} (phase : s.phase = .waiting idleAt)
    (asking : ∀ frame, event = .frame (.ok frame) → Asking frame)
    (h : (s.begin ⟨event, now, [], .ok ()⟩).waiting config ⟨event, now, [], .ok ()⟩ idleAt = some t) :
    Turn s.phase event t.phase t.sent := by
  rw [phase]
  cases event with
  | frame result =>
    cases result with
    | error err =>
      cases h
      exact (reset_leaves rfl _).turn rfl fun _ => rfl
    | ok frame =>
      rcases asking frame rfl with ⟨cmd, atyp, addr, port, rfl⟩ | ⟨bytes, rfl⟩ | ⟨reason, rfl⟩
      · simp only [waiting, handleFrame, Option.some.injEq] at h
        split at h
        · next err refused =>
          subst h
          exact (reset_leaves rfl _).turn rfl fun _ => rfl
        · next target valid =>
          subst h
          exact .opened fun _ => rfl
      · cases h
        exact (reset_leaves rfl _).turn rfl fun _ => rfl
      · cases h
        exact (reset_leaves rfl _).turn rfl fun _ => rfl
  | shutdownChanged =>
    simp only [waiting] at h
    split at h
    · split at h
      · cases h
        exact (gracefulShutdown_leaves rfl).turn rfl fun _ => rfl
      · cases h
        refine (loopHead_rests rfl).turn rfl (fun _ => rfl) ?_
        intro frame same
        cases same
    · cases h
  | idleSleep =>
    simp only [waiting] at h
    split at h
    · cases h
      exact (close_leaves rfl _).turn rfl fun _ => rfl
    · cases h
  | _ => cases h

theorem negotiating_turn {event : LoopEvent} {watching : Bool} (phase : s.phase = .negotiating watching)
    (asking : ∀ frame, event = .frame (.ok frame) → Asking frame)
    (h : (s.begin ⟨event, now, [], .ok ()⟩).negotiating config ⟨event, now, [], .ok ()⟩ watching = some t) :
    Turn s.phase event t.phase t.sent := by
  rw [phase]
  cases event with
  | frame result =>
    cases result with
    | error err =>
      cases h
      exact (reset_leaves rfl _).turn rfl fun _ => rfl
    | ok frame =>
      rcases asking frame rfl with ⟨cmd, atyp, addr, port, rfl⟩ | ⟨bytes, rfl⟩ | ⟨reason, rfl⟩ <;>
      · cases h
        exact (reset_leaves rfl _).turn rfl fun _ => rfl
  | shutdownChanged =>
    simp only [negotiating] at h
    split at h
    · split at h
      · cases h
        exact (close_leaves rfl _).turn rfl fun _ => rfl
      · cases h
        refine .other (fun _ => rfl) ?_ ?_ (Or.inl rfl)
        · intro frame same
          cases same
        · intro mid
          cases mid
    · cases h
  | _ => cases h

theorem connecting_turn {event : LoopEvent} (phase : s.phase = .connecting)
    (h : (s.begin ⟨event, now, [], .ok ()⟩).connecting ⟨event, now, [], .ok ()⟩ = some t) :
    Turn s.phase event t.phase t.sent := by
  rw [phase]
  cases event with
  | connected result =>
    cases result with
    | ok done =>
      cases h
      refine .other (fun _ => rfl) ?_ (fun _ => rfl) (Or.inl rfl)
      intro frame same
      cases same
    | error err =>
      cases h
      exact (reset_leaves rfl _).turn rfl fun _ => rfl
  | _ => cases h

/-- The relay goes on, or comes to its end and to a rest. -/
theorem relayNext_cases (writes : s.writes = []) (relay : ServerRelay) (drainAt : Nat) :
    ∃ tail, (s.relayNext config now drainAt relay).sent = s.sent ++ tail ∧
      Quiet (s.relayNext config now drainAt relay).phase tail ∧
      ((s.relayNext config now drainAt relay).phase.mid = true → relay.targetEnded = false) := by
  cases ended : relay.bothEnded with
  | false =>
    rw [relayNext_running ended]
    refine ⟨[], (List.append_nil _).symm, Or.inl rfl, ?_⟩
    intro mid
    simpa [Phase.mid] using mid
  | true =>
    rw [relayNext_ended ended]
    obtain ⟨tail, sent, quiet, calm⟩ := @relayClosed_rests s config now writes
    refine ⟨tail, sent, quiet, ?_⟩
    intro mid
    rw [calm] at mid
    cases mid

/-- The loop goes on with a relay that has heard the same of the target, and nothing was carried. -/
theorem relayNext_turn {event : LoopEvent} {relay after : ServerRelay} {drainAt before : Nat} (writes : s.writes = [])
    (fresh : s.sent = [])
    (silent : ∀ log, noted (.relaying relay before) event (s.relayNext config now drainAt after).phase log = log)
    (frames : ∀ frame, event = .frame (.ok frame) → ∃ reason, frame = .endRequest reason)
    (same : after.targetEnded = relay.targetEnded) :
    Turn (.relaying relay before) event (s.relayNext config now drainAt after).phase
      (s.relayNext config now drainAt after).sent := by
  obtain ⟨tail, sent, quiet, mid⟩ := @relayNext_cases s config now writes after drainAt
  rw [sent, fresh, List.nil_append]
  refine .other silent (fun frame given => Or.inr (frames frame given)) ?_ quiet
  intro speaking
  simp [Phase.mid, ← same, mid speaking]

theorem relayNext_end_turn {relay : ServerRelay} {drainAt : Nat} {reason : UInt8} (writes : s.writes = [])
    (sent : s.sent = [.endRequest reason]) (running : relay.targetEnded = false) :
    Turn (.relaying relay drainAt) (.target (.ok []))
      (s.relayNext config now drainAt { relay with targetEnded := true }).phase
      (s.relayNext config now drainAt { relay with targetEnded := true }).sent := by
  obtain ⟨tail, all, quiet, mid⟩ := @relayNext_cases s config now writes
    { relay with targetEnded := true } drainAt
  rw [all, sent]
  refine .ended (fun _ => rfl) (by simp [Phase.mid, running]) ?_ quiet
  rw [Bool.eq_false_iff]
  intro speaking
  cases mid speaking

theorem relaying_turn {event : LoopEvent} {relay : ServerRelay} {drainAt : Nat}
    (phase : s.phase = .relaying relay drainAt) (asking : ∀ frame, event = .frame (.ok frame) → Asking frame)
    (h : (s.begin ⟨event, now, [], .ok ()⟩).relaying config ⟨event, now, [], .ok ()⟩ relay drainAt = some t) :
    Turn s.phase event t.phase t.sent := by
  rw [phase]
  cases event with
  | frame result =>
    simp only [relaying] at h
    split at h
    · cases h
    · next listening =>
      have running : relay.clientEnded = false := by simpa using listening
      rw [Option.some.injEq] at h
      subst h
      cases result with
      | error err => exact (reset_leaves rfl _).turn rfl addUp_nil
      | ok frame =>
        rcases asking frame rfl with ⟨cmd, atyp, addr, port, rfl⟩ | ⟨bytes, rfl⟩ | ⟨reason, rfl⟩
        · exact (reset_leaves rfl _).turn rfl addUp_nil
        · have goes : ({ relay with tx := relay.tx + bytes.length } : ServerRelay).bothEnded = false := by
            simp [ServerRelay.bothEnded, running]
          simp only [relayBranch, ServerRelay.frameRead, relayNext_running goes]
          exact .took (fun _ => rfl) rfl
        · refine relayNext_turn rfl rfl addUp_nil ?_ rfl
          intro frame same
          cases same
          exact ⟨reason, rfl⟩
  | target read =>
    simp only [relaying] at h
    split at h
    · cases h
    · next speaking =>
      have running : relay.targetEnded = false := by simpa using speaking
      have mid : (Phase.relaying relay drainAt).mid = true := by simp [Phase.mid, running]
      rw [Option.some.injEq] at h
      subst h
      rcases read with err | (_ | ⟨byte, more⟩)
      · exact (reset_leaves rfl _).turn rfl fun _ => rfl
      · exact relayNext_end_turn rfl rfl running
      · have goes : ({ relay with rx := relay.rx + (byte :: more).length } : ServerRelay).bothEnded = false := by
          simp [ServerRelay.bothEnded, running]
        simp only [relayBranch, ServerRelay.targetRead]
        rw [writeFrame_nil rfl]
        dsimp only
        rw [relayNext_running goes]
        exact .answered (fun _ => rfl) mid
  | shutdownChanged =>
    simp only [relaying] at h
    split at h
    · cases h
    · rw [Option.some.injEq] at h
      subst h
      refine relayNext_turn rfl rfl (fun _ => rfl) ?_ ?_
      · intro frame same
        cases same
      · cases (s.begin ⟨.shutdownChanged, now, [], .ok ()⟩).shutdown <;> rfl
  | drainSleep =>
    simp only [relaying] at h
    split at h
    · cases h
      exact (reset_leaves rfl _).turn rfl fun _ => rfl
    · cases h
  | _ => cases h

/-- The inversion of a step whose writes succeed, for the frames that the client sends. -/
theorem step_turn {event : LoopEvent} (asking : ∀ frame, event = .frame (.ok frame) → Asking frame)
    (h : s.step config ⟨event, now, [], .ok ()⟩ = some t) :
    s.phase.isOver = false ∧ Turn s.phase event t.phase t.sent ∨ ∃ value, event = .sendShutdown value ∧
      t.phase = s.phase ∧ t.sent = [] := by
  rcases step_cases h with ⟨value, sends, rfl⟩ | ⟨watching, phase, h⟩ | ⟨idleAt, phase, h⟩ | ⟨phase, h⟩ |
    ⟨relay, drainAt, phase, h⟩
  · exact Or.inr ⟨value, sends, rfl, rfl⟩
  · exact Or.inl ⟨by rw [phase]; rfl, negotiating_turn phase asking h⟩
  · exact Or.inl ⟨by rw [phase]; rfl, waiting_turn phase asking h⟩
  · exact Or.inl ⟨by rw [phase]; rfl, connecting_turn phase h⟩
  · exact Or.inl ⟨by rw [phase]; rfl, relaying_turn phase asking h⟩

end ServerSession

end NoisyShuttle.Shuttle
