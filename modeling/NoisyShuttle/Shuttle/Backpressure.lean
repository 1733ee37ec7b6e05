import NoisyShuttle.Lib.Run
import NoisyShuttle.Shuttle.Relay

/-!
# Relays that write inline

Both relay loops write a frame within the branch that made it, and poll nothing else until the write
returns. Here they face each other over two channels that hold a bounded number of frames.
-/

namespace NoisyShuttle.Shuttle
open Session
open Tunnel (IoError)

abbrev Read := Except IoError Bytes

def isPing : Frame → Bool
  | .ping _ => true
  | _ => false

def Branch.Quiet {σ : Type} (P : σ → Prop) : Branch σ → Prop
  | .send _ _ => False
  | .deliver _ next | .halfClose next | .proceed next => P next
  | .finish _ => True

/-- What the loops have in common: a branch that reads the plain side until its end, a branch that reads
frames, and a test at the end of an iteration. Only a read of the plain side and a `Ping` lead to a
write. -/
structure RelayCode (σ : Type) where
  sourceEnded : σ → Bool
  sourceRead : σ → Read → Branch σ
  peerEnded : σ → Bool
  frameRead : σ → Except FrameError Frame → Branch σ
  ended : σ → Bool
  ended_source : ∀ s, ended s = true → sourceEnded s = true
  read_error : ∀ s err, ∃ result, sourceRead s (.error err) = .finish result
  read_end : ∀ s, ∃ frame next, sourceRead s (.ok []) = .send frame next ∧
    isPing frame = false ∧ sourceEnded next = true
  read_data : ∀ s byte more, ∃ frame next, sourceRead s (.ok (byte :: more)) = .send frame next ∧
    isPing frame = false ∧ sourceEnded next = sourceEnded s
  frame_quiet : ∀ s frame, isPing frame = false →
    (frameRead s (.ok frame)).Quiet fun next => sourceEnded next = sourceEnded s

def clientCode : RelayCode ClientRelay where
  sourceEnded := ClientRelay.clientClosed
  sourceRead := ClientRelay.inboundRead
  peerEnded _ := false
  frameRead := ClientRelay.frameRead
  ended _ := false
  ended_source := nofun
  read_error _ _ := ⟨_, rfl⟩
  read_end _ := ⟨_, _, rfl, rfl, rfl⟩
  read_data _ _ _ := ⟨_, _, rfl, rfl, rfl⟩
  frame_quiet s frame quiet := by
    cases frame with
    | ping token => cases quiet
    | data bytes => rfl
    | _ => trivial

def serverCode : RelayCode ServerRelay where
  sourceEnded := ServerRelay.targetEnded
  sourceRead := ServerRelay.targetRead
  peerEnded := ServerRelay.clientEnded
  frameRead := ServerRelay.frameRead
  ended := ServerRelay.bothEnded
  ended_source _ both := (Bool.and_eq_true_iff.mp both).2
  read_error _ _ := ⟨_, rfl⟩
  read_end _ := ⟨_, _, rfl, rfl, rfl⟩
  read_data _ _ _ := ⟨_, _, rfl, rfl, rfl⟩
  frame_quiet s frame quiet := by
    cases frame with
    | ping token => cases quiet
    | data bytes => rfl
    | endRequest reason => rfl
    | _ => trivial

/-- A loop polls its `select!`, is in the `write_frame` of a branch, or has returned. -/
inductive Loop (σ : Type) where
  | selecting (s : σ)
  | writing (frame : Frame) (next : σ)
  | done

structure Side (σ : Type) where
  loop : Loop σ
  source : List Read
  out : List Frame

namespace RelayCode
variable {σ : Type} (code : RelayCode σ)

def resume (next : σ) : Loop σ := if code.ended next then .done else .selecting next

def enter : Branch σ → Loop σ
  -- the plain side takes whatever is delivered
  | .send frame next => .writing frame next
  | .deliver _ next | .halfClose next | .proceed next => code.resume next
  | .finish _ => .done

def read (side : Side σ) : Option (Side σ) :=
  match side.loop, side.source with
  | .selecting s, read :: rest =>
    if code.sourceEnded s then none else some { side with loop := code.enter (code.sourceRead s read), source := rest }
  | _, _ => none

def write (capacity : Nat) (side : Side σ) : Option (Side σ) :=
  match side.loop with
  | .writing frame next =>
    if side.out.length < capacity then some { side with loop := code.resume next, out := side.out ++ [frame] } else none
  | _ => none

def receive (frame : Frame) (side : Side σ) : Option (Side σ) :=
  match side.loop with
  | .selecting s =>
    if code.peerEnded s then none else some { side with loop := code.enter (code.frameRead s (.ok frame)) }
  | _ => none

end RelayCode

def Side.blocked {σ : Type} (capacity : Nat) (side : Side σ) : Bool :=
  match side.loop with
  | .writing _ _ => capacity ≤ side.out.length
  | _ => false

inductive Act where
  | read
  | write
  deriving DecidableEq

def RelayCode.act {σ : Type} (code : RelayCode σ) (capacity : Nat) (side : Side σ) : Act → Option (Side σ)
  | .read => code.read side
  | .write => code.write capacity side

structure Duplex where
  client : Side ClientRelay
  server : Side ServerRelay

inductive DuplexEvent where
  | client (act : Act)
  | clientFrame
  | server (act : Act)
  | serverFrame
  | shutdownChanged (shutdown : Bool)
  | drainSleep
  deriving DecidableEq

namespace Duplex

def step (up down : Nat) (s : Duplex) : DuplexEvent → Option Duplex
  | .client act => (clientCode.act up s.client act).map fun client => { s with client := client }
  | .clientFrame =>
    match s.server.out with
    | frame :: rest => (clientCode.receive frame s.client).map fun client => ⟨client, { s.server with out := rest }⟩
    | [] => none
  | .server act => (serverCode.act down s.server act).map fun server => { s with server := server }
  | .serverFrame =>
    match s.client.out with
    | frame :: rest => (serverCode.receive frame s.server).map fun server => ⟨{ s.client with out := rest }, server⟩
    | [] => none
  | .shutdownChanged shutdown =>
    match s.server.loop with
    | .selecting relay =>
      if relay.draining then none
      else some { s with server.loop := serverCode.enter (relay.shutdownChanged shutdown) }
    | _ => none
  | .drainSleep =>
    match s.server.loop with
    | .selecting relay =>
      if relay.draining then some { s with server.loop := serverCode.enter ServerRelay.drainTimeout } else none
    | _ => none

def start (initial : Bytes) (inbound target : List Read) (shutdown : Bool) : Duplex :=
  -- `initial` is what `relay_tcp_frames` sends of the first packet, before its loop
  { client := ⟨if initial = [] then .selecting ⟨false, 0, 0⟩ else .writing (.data initial) ⟨false, initial.length, 0⟩,
      inbound, []⟩
    server := ⟨.selecting (.start shutdown), target, []⟩ }

def deadlocked (up down : Nat) (s : Duplex) : Bool := s.client.blocked up && s.server.blocked down

end Duplex

/-! ## How many frames a side has to write -/

def produced : List Read → Nat
  | [] => 0
  | .error _ :: _ => 0
  | .ok [] :: _ => 1
  | .ok (_ :: _) :: rest => produced rest + 1

def RelayCode.left {σ : Type} (code : RelayCode σ) (s : σ) (source : List Read) : Nat :=
  if code.sourceEnded s then 0 else produced source

namespace Side
variable {σ : Type}

def frames (side : Side σ) : List Frame :=
  match side.loop with
  | .writing frame _ => side.out ++ [frame]
  | _ => side.out

def left (code : RelayCode σ) (side : Side σ) : Nat :=
  match side.loop with
  | .selecting s | .writing _ s => code.left s side.source
  | .done => 0

def Bounded (code : RelayCode σ) (total : Nat) (side : Side σ) : Prop :=
  (∀ f ∈ side.frames, isPing f = false) ∧ side.frames.length + side.left code ≤ total

end Side

namespace RelayCode
variable {σ : Type} {code : RelayCode σ} {side next : Side σ} {total capacity : Nat}

theorem resume_frames (code : RelayCode σ) (s : σ) (source : List Read) (out : List Frame) :
    (⟨code.resume s, source, out⟩ : Side σ).frames = out := by
  unfold resume
  split
  · rfl
  · rfl

theorem resume_left (code : RelayCode σ) (s : σ) (source : List Read) (out : List Frame) :
    (⟨code.resume s, source, out⟩ : Side σ).left code ≤ code.left s source := by
  unfold resume
  split
  · exact Nat.zero_le _
  · exact Nat.le_refl _

theorem resume_bounded {s after : σ} {source : List Read} {out : List Frame}
    (bounded : (⟨.selecting s, source, out⟩ : Side σ).Bounded code total)
    (same : code.sourceEnded after = code.sourceEnded s) :
    (⟨code.resume after, source, out⟩ : Side σ).Bounded code total := by
  have fewer := code.resume_left after source out
  rw [left, same] at fewer
  rw [Side.Bounded, resume_frames]
  exact ⟨bounded.1, Nat.le_trans (Nat.add_le_add_left fewer _) bounded.2⟩

theorem enter_bounded {branch : Branch σ} {s : σ} {source : List Read} {out : List Frame}
    (bounded : (⟨.selecting s, source, out⟩ : Side σ).Bounded code total)
    (quiet : branch.Quiet fun next => code.sourceEnded next = code.sourceEnded s) :
    (⟨code.enter branch, source, out⟩ : Side σ).Bounded code total := by
  cases branch with
  | send frame next => exact quiet.elim
  | deliver bytes next => exact resume_bounded bounded quiet
  | halfClose next => exact resume_bounded bounded quiet
  | proceed next => exact resume_bounded bounded quiet
  | finish result => exact ⟨bounded.1, Nat.le_trans (Nat.le_add_right _ _) bounded.2⟩

theorem read_spec {s : σ} {read : Read} {rest : List Read} {out : List Frame} (running : code.sourceEnded s = false)
    (plain : ∀ f ∈ out, isPing f = false) (fits : out.length + produced (read :: rest) ≤ total) :
    (⟨code.enter (code.sourceRead s read), rest, out⟩ : Side σ).Bounded code total := by
  have sent {frame : Frame} (quiet : isPing frame = false) : ∀ f ∈ out ++ [frame], isPing f = false :=
    List.forall_mem_append.mpr ⟨plain, List.forall_mem_singleton.mpr quiet⟩
  rcases read with err | (_ | ⟨byte, more⟩)
  · obtain ⟨result, finishes⟩ := code.read_error s err
    rw [finishes]
    exact ⟨plain, fits⟩
  · obtain ⟨frame, next, sends, quiet, ended⟩ := code.read_end s
    rw [sends]
    refine ⟨sent quiet, ?_⟩
    simpa [enter, Side.frames, Side.left, left, ended, produced] using fits
  · obtain ⟨frame, next, sends, quiet, same⟩ := code.read_data s byte more
    rw [sends]
    refine ⟨sent quiet, ?_⟩
    simp only [produced] at fits
    simp only [enter, Side.frames, Side.left, left, same, running, List.length_append, List.length_singleton,
      Bool.false_eq_true, if_false]
    omega

theorem read_bounded (bounded : side.Bounded code total) (h : code.read side = some next) :
    next.Bounded code total := by
  obtain ⟨loop, source, out⟩ := side
  simp only [read] at h
  split at h
  · next s read rest =>
    obtain ⟨plain, fits⟩ := bounded
    cases running : code.sourceEnded s with
    | true => simp [running] at h
    | false =>
      rw [running, if_neg Bool.false_ne_true] at h
      cases h
      exact read_spec running plain (by simpa [Side.frames, Side.left, left, running] using fits)
  · cases h

theorem write_bounded (bounded : side.Bounded code total) (h : code.write capacity side = some next) :
    next.Bounded code total := by
  obtain ⟨loop, source, out⟩ := side
  simp only [write] at h
  split at h
  · next frame s =>
    split at h
    · cases h
      obtain ⟨plain, fits⟩ := bounded
      rw [Side.Bounded, resume_frames]
      exact ⟨plain, Nat.le_trans (Nat.add_le_add_left (code.resume_left s source _) _) fits⟩
    · cases h
  · cases h

theorem act_bounded {act : Act} (bounded : side.Bounded code total) (h : code.act capacity side act = some next) :
    next.Bounded code total := by
  cases act with
  | read => exact read_bounded bounded h
  | write => exact write_bounded bounded h

theorem receive_bounded {frame : Frame} (bounded : side.Bounded code total) (plain : isPing frame = false)
    (h : code.receive frame side = some next) : next.Bounded code total := by
  obtain ⟨loop, source, out⟩ := side
  simp only [receive] at h
  split at h
  · next s =>
    split at h
    · cases h
    · cases h
      exact enter_bounded bounded (code.frame_quiet s frame plain)
  · cases h

end RelayCode

namespace Side
variable {σ : Type} {code : RelayCode σ} {total capacity : Nat}

theorem Bounded.taken {side : Side σ} {frame : Frame} {rest : List Frame} (bounded : side.Bounded code total)
    (front : side.out = frame :: rest) :
    isPing frame = false ∧ ({ side with out := rest } : Side σ).Bounded code total := by
  obtain ⟨loop, source, out⟩ := side
  cases front
  obtain ⟨plain, fits⟩ := bounded
  cases loop <;>
    simp only [Side.Bounded, frames, left, List.cons_append, List.forall_mem_cons, List.length_cons] at plain fits ⊢ <;>
    exact ⟨plain.1, plain.2, by omega⟩

theorem Bounded.blocked {side : Side σ} (bounded : side.Bounded code total) (blocked : side.blocked capacity = true) :
    capacity < total := by
  obtain ⟨loop, source, out⟩ := side
  cases loop with
  | writing frame next =>
    have full : capacity ≤ out.length := of_decide_eq_true blocked
    have fits := bounded.2
    simp only [frames, List.length_append, List.length_singleton] at fits
    omega
  | _ => cases blocked

end Side

/-! ## A schedule that fills the channels -/

namespace RelayCode
variable {σ : Type} {code : RelayCode σ}

theorem read_blocks {s next : σ} {read : Read} {frame : Frame} (running : code.sourceEnded s = false)
    (sends : code.sourceRead s read = .send frame next) (rest : List Read) {out : List Frame} {capacity : Nat}
    (full : out.length = capacity) :
    ∃ acts after, run (code.act capacity) ⟨.selecting s, read :: rest, out⟩ acts = some after ∧
      after.blocked capacity = true := by
  refine ⟨[.read], ⟨.writing frame next, rest, out⟩, ?_, decide_eq_true (Nat.le_of_eq full.symm)⟩
  simp [run, act, RelayCode.read, running, sends, enter]

/-- A side whose frames nobody takes blocks once it has one more than fit. -/
theorem fills (code : RelayCode σ) (capacity : Nat) (source : List Read) (s : σ) (out : List Frame)
    (running : code.sourceEnded s = false) (room : out.length ≤ capacity)
    (many : capacity < out.length + produced source) :
    ∃ acts after, run (code.act capacity) ⟨.selecting s, source, out⟩ acts = some after ∧
      after.blocked capacity = true := by
  induction source generalizing s out with
  | nil => exact absurd many (by simp [produced, room])
  | cons read rest ih =>
    rcases read with err | (_ | ⟨byte, more⟩)
    · exact absurd many (by simp [produced, room])
    · obtain ⟨frame, next, sends, -, -⟩ := code.read_end s
      have full : out.length = capacity := Nat.le_antisymm room (Nat.le_of_lt_succ many)
      exact read_blocks running sends rest full
    · obtain ⟨frame, next, sends, -, same⟩ := code.read_data s byte more
      rcases Nat.eq_or_lt_of_le room with full | free
      · exact read_blocks running sends rest full
      · have going : code.sourceEnded next = false := same.trans running
        have resumes : code.resume next = .selecting next := by
          unfold resume
          rw [if_neg fun ended => by simp [code.ended_source next ended] at going]
        have wrote : run (code.act capacity) ⟨.selecting s, .ok (byte :: more) :: rest, out⟩ [.read, .write] =
            some ⟨.selecting next, rest, out ++ [frame]⟩ := by
          simp [run, act, RelayCode.read, RelayCode.write, running, sends, enter, free, resumes]
        have longer : (out ++ [frame]).length = out.length + 1 := by simp
        simp only [produced] at many
        obtain ⟨acts, after, ran, blocked⟩ := ih next (out ++ [frame]) going (by omega) (by omega)
        exact ⟨[.read, .write] ++ acts, after, run_append.mpr ⟨_, wrote, ran⟩, blocked⟩

end RelayCode

def clientFrames (initial : Bytes) (inbound : List Read) : Nat :=
  (if initial = [] then 0 else 1) + produced inbound

namespace Duplex
variable {up down : Nat} {initial : Bytes} {inbound target : List Read} {shutdown : Bool}

theorem client_fills (down : Nat) (s : Duplex) (client : s.client = (start initial inbound target shutdown).client)
    (many : up < clientFrames initial inbound) :
    ∃ events full, run (step up down) s events = some { s with client := full } ∧ full.blocked up = true := by
  have sideways : ∃ acts full, run (clientCode.act up) s.client acts = some full ∧ full.blocked up = true := by
    rw [client]
    unfold start clientFrames at *
    by_cases none : initial = []
    · simp only [if_pos none, Nat.zero_add] at many ⊢
      exact clientCode.fills up inbound _ [] rfl (Nat.zero_le _) (by simpa using many)
    · simp only [if_neg none] at many ⊢
      cases up with
      | zero => exact ⟨[], _, rfl, rfl⟩
      | succ up =>
        obtain ⟨acts, full, ran, blocked⟩ :=
          clientCode.fills (up + 1) inbound ⟨false, initial.length, 0⟩ [.data initial] rfl (by simp)
            (by simpa using many)
        exact ⟨.write :: acts, full, run_cons.mpr ⟨_, rfl, ran⟩, blocked⟩
  obtain ⟨acts, full, ran, blocked⟩ := sideways
  refine ⟨acts.map .client, full, ?_, blocked⟩
  refine run_lift (fun client => { s with client := client }) DuplexEvent.client (fun side act next stepped => ?_) ran
  simp [step, stepped]

theorem server_fills (up : Nat) (s : Duplex) (server : s.server = ⟨.selecting (.start shutdown), target, []⟩)
    (many : down < produced target) :
    ∃ events full, run (step up down) s events = some { s with server := full } ∧ full.blocked down = true := by
  have sideways : ∃ acts full, run (serverCode.act down) s.server acts = some full ∧ full.blocked down = true := by
    rw [server]
    exact serverCode.fills down target _ [] rfl (Nat.zero_le _) (by simpa using many)
  obtain ⟨acts, full, ran, blocked⟩ := sideways
  refine ⟨acts.map .server, full, ?_, blocked⟩
  refine run_lift (fun server => { s with server := server }) DuplexEvent.server (fun side act next stepped => ?_) ran
  simp [step, stepped]

def Bounded (clients servers : Nat) (s : Duplex) : Prop :=
  s.client.Bounded clientCode clients ∧ s.server.Bounded serverCode servers

theorem step_bounded {clients servers : Nat} (s : Duplex) (event : DuplexEvent) (next : Duplex)
    (bounded : s.Bounded clients servers) (h : s.step up down event = some next) : next.Bounded clients servers := by
  obtain ⟨client, server⟩ := bounded
  cases event with
  | client act =>
    obtain ⟨after, stepped, rfl⟩ := Option.map_eq_some_iff.mp h
    exact ⟨RelayCode.act_bounded client stepped, server⟩
  | clientFrame =>
    simp only [step] at h
    split at h
    · next frame rest front =>
      obtain ⟨after, stepped, rfl⟩ := Option.map_eq_some_iff.mp h
      obtain ⟨plain, server⟩ := server.taken front
      exact ⟨RelayCode.receive_bounded client plain stepped, server⟩
    · cases h
  | server act =>
    obtain ⟨after, stepped, rfl⟩ := Option.map_eq_some_iff.mp h
    exact ⟨client, RelayCode.act_bounded server stepped⟩
  | serverFrame =>
    simp only [step] at h
    split at h
    · next frame rest front =>
      obtain ⟨after, stepped, rfl⟩ := Option.map_eq_some_iff.mp h
      obtain ⟨plain, client⟩ := client.taken front
      exact ⟨client, RelayCode.receive_bounded server plain stepped⟩
    · cases h
  | shutdownChanged shutdown =>
    obtain ⟨clientSide, ⟨loop, source, out⟩⟩ := s
    simp only [step] at h
    split at h
    · next relay =>
      split at h
      · cases h
      · cases h
        refine ⟨client, RelayCode.enter_bounded server ?_⟩
        cases shutdown <;> rfl
    · cases h
  | drainSleep =>
    obtain ⟨clientSide, ⟨loop, source, out⟩⟩ := s
    simp only [step] at h
    split at h
    · next relay =>
      split at h
      · cases h
        exact ⟨client, RelayCode.enter_bounded server trivial⟩
      · cases h
    · cases h

theorem start_bounded (initial : Bytes) (inbound target : List Read) (shutdown : Bool) :
    (start initial inbound target shutdown).Bounded (clientFrames initial inbound) (produced target) := by
  refine ⟨?_, nofun, ?_⟩
  · unfold start clientFrames
    by_cases none : initial = []
    · simp only [if_pos none, Nat.zero_add]
      exact ⟨nofun, by simp [Side.frames, Side.left, RelayCode.left, clientCode]⟩
    · simp only [if_neg none]
      exact ⟨by simp [Side.frames, isPing], by simp [Side.frames, Side.left, RelayCode.left, clientCode]⟩
  · simp [start, Side.frames, Side.left, RelayCode.left, serverCode, ServerRelay.start]

/-- Neither loop gets out of its write: nothing else is polled. -/
theorem deadlocked_stuck {s : Duplex} (stuck : s.deadlocked up down = true) (event : DuplexEvent) :
    s.step up down event = none := by
  obtain ⟨⟨clientLoop, inbound, uplink⟩, ⟨serverLoop, target, downlink⟩⟩ := s
  obtain ⟨client, server⟩ := Bool.and_eq_true_iff.mp stuck
  cases clientLoop with
  | writing sent relay =>
    cases serverLoop with
    | writing answered served =>
      have upFull : ¬ uplink.length < up := Nat.not_lt.mpr (of_decide_eq_true client)
      have downFull : ¬ downlink.length < down := Nat.not_lt.mpr (of_decide_eq_true server)
      rcases event with (_ | _) | _ | (_ | _) | _ | _ | _
      · rfl
      · simp [step, RelayCode.act, RelayCode.write, upFull]
      · cases downlink <;> rfl
      · rfl
      · simp [step, RelayCode.act, RelayCode.write, downFull]
      · cases uplink <;> rfl
      · rfl
      · rfl
    | _ => cases server
  | _ => cases client

end Duplex

theorem deadlock_free_iff (up down : Nat) (initial : Bytes) (inbound target : List Read) (shutdown : Bool) :
    (∀ events final, run (Duplex.step up down) (.start initial inbound target shutdown) events = some final →
      final.deadlocked up down = false) ↔
    clientFrames initial inbound ≤ up ∨ produced target ≤ down := by
  constructor
  · intro free
    by_contra few
    obtain ⟨clientMany, serverMany⟩ := not_or.mp few
    obtain ⟨first, full, filled, clientBlocked⟩ :=
      Duplex.client_fills down (.start initial inbound target shutdown) rfl (Nat.lt_of_not_le clientMany)
    obtain ⟨second, stuck, both, serverBlocked⟩ :=
      Duplex.server_fills up { Duplex.start initial inbound target shutdown with client := full } rfl
        (Nat.lt_of_not_le serverMany)
    have never := free (first ++ second) _ (run_append.mpr ⟨_, filled, both⟩)
    simp [Duplex.deadlocked, clientBlocked, serverBlocked] at never
  · intro few events final h
    have bounded : final.Bounded (clientFrames initial inbound) (produced target) :=
      reachable_invariant Duplex.step_bounded (Duplex.start_bounded initial inbound target shutdown) ⟨events, h⟩
    rw [← Bool.not_eq_true]
    intro deadlocked
    obtain ⟨client, server⟩ := Bool.and_eq_true_iff.mp deadlocked
    have clientMany := bounded.1.blocked client
    have serverMany := bounded.2.blocked server
    omega

theorem both_blocked_forever :
    ∃ final, run (Duplex.step 1 1) (.start [] [.ok [0], .ok [1]] [.ok [2], .ok [3]] false)
        [.client .read, .client .write, .server .read, .server .write, .client .read, .server .read] = some final ∧
      final.deadlocked 1 1 = true ∧ ∀ event, final.step 1 1 event = none :=
  ⟨_, rfl, rfl, Duplex.deadlocked_stuck rfl⟩

end NoisyShuttle.Shuttle
