import NoisyShuttle.Lib.Run
import NoisyShuttle.Shuttle.Relay

/-!
# Frame reads under `select!`

Every iteration of a relay loop races a new `read_frame` future against the other branches. The
future takes bytes out of the stream as they arrive; when another branch wins it is dropped with
what it has read.
-/

namespace NoisyShuttle.Shuttle
open Session
open Tunnel (IoError)

/-- A loop over a `select!` with a `read_frame` branch; `other` are the other branches, `none` when
the branch is switched off. -/
structure SelectLoop (σ ω : Type) where
  frameEnabled : σ → Bool
  frameRead : σ → Except FrameError Frame → Branch σ
  other : σ → ω → Option (Branch σ)
  done : σ → Bool

/-- The loop's variables, `none` once it has returned; the bytes in the current `read_frame` future,
in the stream and not arrived yet; the frames handled. -/
structure Selecting (σ : Type) where
  vars : Option σ
  taken : Bytes
  avail : Bytes
  coming : Bytes
  handled : List Frame

/-- `written` is the outcome of the branch's write, if it makes one. -/
inductive SelectEvent (ω : Type) where
  | arrive (n : Nat)
  | pollFrame (written : Bool)
  | other (wake : ω) (written : Bool)

def Branch.next {σ : Type} (done : σ → Bool) (written : Bool) : Branch σ → Option σ
  | .send _ next | .deliver _ next => if written ∧ ¬ done next then some next else none
  | .halfClose next | .proceed next => if done next then none else some next
  | .finish _ => none

section Loop

variable {σ ω : Type} (loop : SelectLoop σ ω)

def SelectLoop.step (s : Selecting σ) : SelectEvent ω → Option (Selecting σ)
  | .arrive n => some { s with avail := s.avail ++ s.coming.take n, coming := s.coming.drop n }
  | .pollFrame written =>
    match s.vars with
    | none => none
    | some vars =>
      if loop.frameEnabled vars then
        match pollFrame s.taken s.avail with
        | .pending taken => some { s with taken := taken, avail := [] }
        | .ready result rest =>
          some { s with
            vars := (loop.frameRead vars result).next loop.done written
            taken := []
            avail := rest
            handled := s.handled ++ result.toOption.toList }
      else none
  | .other wake written =>
    match s.vars with
    | none => none
    | some vars =>
      (loop.other vars wake).map fun branch =>
        { s with vars := branch.next loop.done written, taken := [] }

def Selecting.start (vars : σ) (frames : List Frame) : Selecting σ :=
  ⟨some vars, [], [], (frames.map Frame.bytes).flatten, []⟩

/-- A loop that drops a `read_frame` future with bytes in it does not go on. -/
def Undisturbed (s : Selecting σ) : SelectEvent ω → Prop
  | .other wake written => s.taken = [] ∨ (loop.step s (.other wake written)).all (·.vars.isNone)
  | _ => True

instance (s : Selecting σ) (event : SelectEvent ω) : Decidable (Undisturbed loop s event) :=
  match event with
  | .other wake written =>
    inferInstanceAs (Decidable (s.taken = [] ∨ (loop.step s (.other wake written)).all (·.vars.isNone)))
  | .arrive _ | .pollFrame _ => .isTrue trivial

/-- The frames not handled yet are what is left of the stream, from the bytes in the future on, as long as there is
somebody to handle them. -/
def InFrames (frames : List Frame) (s : Selecting σ) : Prop :=
  ∃ rest, frames = s.handled ++ rest ∧
    (s.vars.isNone = false → s.taken ++ s.avail ++ s.coming = (rest.map Frame.bytes).flatten)

theorem inFrames_step {frames : List Frame} (sized : ∀ f ∈ frames, f.Sized) {s next : Selecting σ}
    {event : SelectEvent ω} (inv : InFrames frames s) (ok : Undisturbed loop s event)
    (h : loop.step s event = some next) : InFrames frames next := by
  obtain ⟨rest, split, stream⟩ := inv
  cases event with
  | arrive n =>
    cases h
    refine ⟨rest, split, ?_⟩
    intro runs
    rw [← stream runs]
    simp
  | pollFrame written =>
    unfold SelectLoop.step at h
    dsimp only at h
    split at h
    · cases h
    · next vars running =>
      have stream := stream (by rw [running]; rfl)
      split at h
      · have later : ∀ f ∈ rest, f.Sized := fun f mem => sized f (split ▸ List.mem_append_right _ mem)
        rcases pollFrame_frames later stream with polled | ⟨frame, more, left, rfl, polled, follows⟩
        · rw [polled] at h
          cases h
          exact ⟨rest, split, fun _ => by simpa using stream⟩
        · rw [polled] at h
          cases h
          exact ⟨more, by simp [split, Except.toOption], fun _ => follows⟩
      · cases h
  | other wake written =>
    have goes (runs : next.vars.isNone = false) : s.taken = [] := by
      rcases ok with empty | last
      · exact empty
      · rw [h, Option.all_some, runs] at last
        cases last
    unfold SelectLoop.step at h
    dsimp only at h
    split at h
    · cases h
    · next vars running =>
      obtain ⟨branch, -, rfl⟩ := Option.map_eq_some_iff.mp h
      refine ⟨rest, split, ?_⟩
      intro runs
      have stream := stream (by rw [running]; rfl)
      rw [goes runs] at stream
      exact stream

theorem handled_prefix {frames : List Frame} (sized : ∀ f ∈ frames, f.Sized) {vars : σ}
    {events : List (SelectEvent ω)} {final : Selecting σ}
    (ok : Guarded loop.step (Undisturbed loop) (.start vars frames) events)
    (h : run loop.step (.start vars frames) events = some final) : final.handled <+: frames := by
  obtain ⟨rest, split, -⟩ : InFrames frames final :=
    guarded_invariant (fun _ _ _ inv ok stepped => inFrames_step loop sized inv ok stepped)
      ⟨frames, rfl, fun _ => rfl⟩ ok h
  exact ⟨rest, split.symm⟩

end Loop

/-! ## The two loops -/

def clientLoop : SelectLoop ClientRelay (Except IoError Bytes) where
  frameEnabled _ := true
  frameRead := ClientRelay.frameRead
  other s read := if s.clientClosed then none else some (s.inboundRead read)
  done _ := false

inductive ServerWake where
  | target (read : Except IoError Bytes)
  | shutdown (value : Bool)
  | drainTimeout

def serverLoop : SelectLoop ServerRelay ServerWake where
  frameEnabled s := !s.clientEnded
  frameRead := ServerRelay.frameRead
  other s
    | .target read => if s.targetEnded then none else some (s.targetRead read)
    | .shutdown value => if s.draining then none else some (s.shutdownChanged value)
    | .drainTimeout => if s.draining then some ServerRelay.drainTimeout else none
  done := ServerRelay.bothEnded

/-- Both relays handle the frames of the stream in order as long as every branch that wins over
`read_frame` and does not end the loop does so before the future has read a byte. -/
theorem frames_handled_in_order (frames : List Frame) (sized : ∀ f ∈ frames, f.Sized) :
    (∀ (vars : ClientRelay) events final,
      Guarded clientLoop.step (Undisturbed clientLoop) (.start vars frames) events →
      run clientLoop.step (.start vars frames) events = some final → final.handled <+: frames) ∧
    (∀ (vars : ServerRelay) events final,
      Guarded serverLoop.step (Undisturbed serverLoop) (.start vars frames) events →
      run serverLoop.step (.start vars frames) events = some final → final.handled <+: frames) :=
  ⟨fun _ _ _ ok h => handled_prefix clientLoop sized ok h, fun _ _ _ ok h => handled_prefix serverLoop sized ok h⟩

def nestedFrame : Frame := .data [0x04, 0x00, 0x01, 0x00]

def undisturbedRun {ω : Type} (wake : ω) : List (SelectEvent ω) :=
  [.other wake true, .arrive 3, .pollFrame true, .arrive 4, .pollFrame true]

def disturbedRun {ω : Type} (wake : ω) : List (SelectEvent ω) :=
  [.arrive 3, .pollFrame true, .other wake true, .arrive 4, .pollFrame true]

theorem frames_handled_in_order_nested :
    ∃ client server,
      run clientLoop.step (.start ⟨false, 0, 0⟩ [nestedFrame]) (undisturbedRun (.ok [0x2a])) = some client ∧
      run serverLoop.step (.start (.start false) [nestedFrame]) (undisturbedRun (.target (.ok [0x2a]))) =
        some server ∧
      client.handled <+: [nestedFrame] ∧ server.handled <+: [nestedFrame] ∧
      client.handled.length = 1 ∧ server.handled.length = 1 := by
  have clientRan : (run clientLoop.step (.start ⟨false, 0, 0⟩ [nestedFrame]) (undisturbedRun (.ok [0x2a]))).map
      (fun s => s.handled.length) = some 1 := by decide +kernel
  have serverRan : (run serverLoop.step (.start (.start false) [nestedFrame])
      (undisturbedRun (.target (.ok [0x2a])))).map (fun s => s.handled.length) = some 1 := by decide +kernel
  obtain ⟨client, clientRan, one⟩ := Option.map_eq_some_iff.mp clientRan
  obtain ⟨server, serverRan, one'⟩ := Option.map_eq_some_iff.mp serverRan
  have inOrder := frames_handled_in_order [nestedFrame] (by decide)
  exact ⟨client, server, clientRan, serverRan, inOrder.1 _ _ _ (by decide +kernel) clientRan,
    inOrder.2 _ _ _ (by decide +kernel) serverRan, one, one'⟩

/-- With the header read and dropped, the payload is taken for a frame: both relays handle an
`EndRequest` that is not in the stream. -/
theorem frames_lost_in_select :
    (run clientLoop.step (.start ⟨false, 0, 0⟩ [nestedFrame]) (disturbedRun (.ok [0x2a]))).map
      Selecting.handled = some [.endRequest 0] ∧
    (run serverLoop.step (.start (.start false) [nestedFrame]) (disturbedRun (.target (.ok [0x2a])))).map
      Selecting.handled = some [.endRequest 0] ∧
    ¬ [Frame.endRequest 0] <+: [nestedFrame] := by
  decide +kernel

end NoisyShuttle.Shuttle
