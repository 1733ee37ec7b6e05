import NoisyShuttle.Lib.Run
import NoisyShuttle.Session.Negotiate
import Mathlib.Data.Nat.Bitwise

/-!
# Negotiation between two releases

`negotiate_client` and `negotiate_server` at the two ends of a connection, each with a protocol version
of its own. Bytes arrive in order, in pieces of any size, and nothing fails or times out.
-/

namespace NoisyShuttle.Session

structure Release where
  version : UInt8
  caps : Capabilities

/-- Where a side stands: before its first write, in its read with what it has read so far, or done. -/
inductive Side where
  | writing
  | reading (taken : Bytes)
  | returned (result : Except NegotiationError NegotiatedCapabilities)

structure Exchange where
  client : Side
  server : Side
  toServer : Bytes
  toClient : Bytes

namespace Exchange

inductive Event where
  | clientWrites
  | serverReads (n : Nat)
  | clientReads (n : Nat)

def start : Exchange := ⟨.writing, .reading [], [], []⟩

-- The frames of a negotiation are within the size limit: `write_frame` writes their bytes.
def written (frame : Option Frame) : Bytes := (frame.map Frame.bytes).getD []

variable (client server : Release)

def step (s : Exchange) : Event → Option Exchange
  | .clientWrites =>
    match s.client with
    | .writing => some { s with
        client := .reading [], toServer := s.toServer ++ written (some (clientHello client.version client.caps)) }
    | _ => none
  | .serverReads n =>
    match s.server with
    | .reading taken =>
      match pollFrame taken (s.toServer.take n) with
      | .pending taken => some { s with server := .reading taken, toServer := s.toServer.drop n }
      | .ready result rest =>
        let (reply, outcome) := negotiateServer server.version server.caps (some result)
        some { s with
          server := .returned outcome, toServer := rest ++ s.toServer.drop n, toClient := s.toClient ++ written reply }
    | _ => none
  | .clientReads n =>
    match s.client with
    | .reading taken =>
      match pollFrame taken (s.toClient.take n) with
      | .pending taken => some { s with client := .reading taken, toClient := s.toClient.drop n }
      | .ready result rest => some { s with
          client := .returned (negotiateClient client.version client.caps (some result))
          toClient := rest ++ s.toClient.drop n }
    | _ => none

/-! ## The two outcomes -/

def hello : Frame := clientHello client.version client.caps

/-- The frame the server answers the hello with. -/
def reply : Frame :=
  if client.version ≤ server.version then .clientHello server.version server.caps
  else .close CloseReason.versionMismatch.discriminant

def serverOutcome : Except NegotiationError NegotiatedCapabilities :=
  (negotiateServer server.version server.caps (some (.ok (hello client)))).2

def clientOutcome : Except NegotiationError NegotiatedCapabilities :=
  negotiateClient client.version client.caps (some (.ok (reply client server)))

variable {client server}

theorem negotiateServer_reply :
    (negotiateServer server.version server.caps (some (.ok (hello client)))).1 = some (reply client server) := by
  show (ite (decide (client.version ≤ server.version) = true) _ _ : _ × _).1 = _
  unfold reply
  by_cases accepted : client.version ≤ server.version
  · rw [if_pos (decide_eq_true accepted), if_pos accepted]
  · rw [if_neg (by simpa using accepted), if_neg accepted]

/-- A client that is not newer than the server: both have the same capabilities. -/
theorem outcomes_accepted (accepted : client.version ≤ server.version) :
    serverOutcome client server = .ok (.fromIntersect client.caps server.caps server.version) ∧
      clientOutcome client server = .ok (.fromIntersect client.caps server.caps server.version) := by
  constructor
  · show (ite (decide (client.version ≤ server.version) = true) _ _ : _ × _).2 = _
    rw [if_pos (decide_eq_true accepted)]
  · unfold clientOutcome reply
    rw [if_pos accepted]
    exact if_pos (decide_eq_true accepted)

/-- A newer client: the server says why it refuses, and the client reports it. -/
theorem outcomes_refused (refused : ¬ client.version ≤ server.version) :
    serverOutcome client server = .error (.versionMismatch client.version server.version) ∧
      clientOutcome client server = .error (.serverRejected CloseReason.versionMismatch.discriminant) := by
  constructor
  · show (ite (decide (client.version ≤ server.version) = true) _ _ : _ × _).2 = _
    rw [if_neg (by simpa using refused)]
  · unfold clientOutcome reply
    rw [if_neg refused]
    rfl

/-! ## Every interleaving -/

def final (client server : Release) : Exchange :=
  ⟨.returned (clientOutcome client server), .returned (serverOutcome client server), [], []⟩

/-- The stages of an exchange. -/
inductive Stage (client server : Release) : Exchange → Prop where
  | opening : Stage client server start
  | asked {taken coming} (whole : taken ++ coming = (hello client).bytes) :
      Stage client server ⟨.reading [], .reading taken, coming, []⟩
  | answered {taken coming} (whole : taken ++ coming = (reply client server).bytes) :
      Stage client server ⟨.reading taken, .returned (serverOutcome client server), [], coming⟩
  | done : Stage client server (final client server)

theorem hello_sized (client : Release) : (hello client).Sized := by
  show 3 ≤ maxFramePayload
  decide

theorem reply_sized (client server : Release) : (reply client server).Sized := by
  unfold reply
  split
  · show 3 ≤ maxFramePayload
    decide
  · show 1 ≤ maxFramePayload
    decide

/-- Polling for a frame that is the only one to come: a part of it is taken, or all. -/
theorem pollFrame_only {frame : Frame} (sized : frame.Sized) {taken coming : Bytes}
    (whole : taken ++ coming = frame.bytes) (n : Nat) :
    (pollFrame taken (coming.take n) = .pending (taken ++ coming.take n) ∧
        taken ++ coming.take n ++ coming.drop n = frame.bytes) ∨
      (pollFrame taken (coming.take n) = .ready (.ok frame) [] ∧ coming.drop n = []) := by
  have cut : taken ++ coming.take n ++ coming.drop n = frame.bytes := by
    rw [List.append_assoc, List.take_append_drop, whole]
  by_cases missing : coming.drop n = []
  · right
    rw [missing, List.append_nil] at cut
    exact ⟨pollFrame_ready sized (by rw [cut, List.append_nil]), missing⟩
  · left
    exact ⟨pollFrame_pending sized missing cut.symm, cut⟩

theorem step_stage {s next : Exchange} {event : Event} (stage : Stage client server s)
    (stepped : s.step client server event = some next) : Stage client server next := by
  cases stage with
  | opening =>
    cases event with
    | clientWrites =>
      cases stepped
      exact .asked rfl
    | serverReads n =>
      simp only [step, start, List.take_nil, List.drop_nil] at stepped
      cases stepped
      exact .opening
    | clientReads n => cases stepped
  | @asked taken coming whole =>
    cases event with
    | clientWrites => cases stepped
    | serverReads n =>
      rcases pollFrame_only (hello_sized client) whole n with ⟨pending, rest⟩ | ⟨ready, none⟩
      · simp only [step, pending] at stepped
        cases stepped
        exact .asked rest
      · simp only [step, ready, none, negotiateServer_reply] at stepped
        cases stepped
        exact .answered rfl
    | clientReads n =>
      simp only [step, List.take_nil, List.drop_nil] at stepped
      cases stepped
      exact .asked whole
  | @answered taken coming whole =>
    cases event with
    | clientWrites => cases stepped
    | serverReads n => cases stepped
    | clientReads n =>
      rcases pollFrame_only (reply_sized client server) whole n with ⟨pending, rest⟩ | ⟨ready, none⟩
      · simp only [step, pending] at stepped
        cases stepped
        exact .answered rest
      · simp only [step, ready, none] at stepped
        cases stepped
        exact .done
  | done =>
    cases event with
    | clientWrites => cases stepped
    | serverReads n => cases stepped
    | clientReads n => cases stepped

theorem pollFrame_rest {frame : Frame} (sized : frame.Sized) {taken coming : Bytes}
    (whole : taken ++ coming = frame.bytes) : pollFrame taken coming = .ready (.ok frame) [] :=
  pollFrame_ready sized (by rw [whole, List.append_nil])

theorem answered_finishes {taken coming : Bytes} (whole : taken ++ coming = (reply client server).bytes) :
    run (step client server) ⟨.reading taken, .returned (serverOutcome client server), [], coming⟩
      [.clientReads coming.length] = some (final client server) := by
  have ready := pollFrame_rest (reply_sized client server) whole
  simp only [run, step, List.take_length, List.drop_length, ready, Option.bind_some]
  rfl

theorem asked_finishes {taken coming : Bytes} (whole : taken ++ coming = (hello client).bytes) :
    run (step client server) ⟨.reading [], .reading taken, coming, []⟩
      [.serverReads coming.length, .clientReads (reply client server).bytes.length] = some (final client server) := by
  have ready := pollFrame_rest (hello_sized client) whole
  refine run_cons.mpr ⟨_, ?_, answered_finishes (List.nil_append _)⟩
  simp only [step, List.take_length, List.drop_length, ready, negotiateServer_reply]
  rfl

/-- An exchange can always be brought to its end. -/
theorem stage_finishes {s : Exchange} (stage : Stage client server s) :
    ∃ events, run (step client server) s events = some (final client server) := by
  cases stage with
  | opening => exact ⟨.clientWrites :: _, run_cons.mpr ⟨_, rfl, asked_finishes (List.nil_append _)⟩⟩
  | asked whole => exact ⟨_, asked_finishes whole⟩
  | answered whole => exact ⟨_, answered_finishes whole⟩
  | done => exact ⟨[], rfl⟩

theorem run_stage {s : Exchange} {events : List Event} (ran : run (step client server) start events = some s) :
    Stage client server s :=
  reachable_invariant (fun _ _ _ => step_stage) .opening ⟨events, ran⟩

theorem returned_stage {s : Exchange} {forClient forServer : Except NegotiationError NegotiatedCapabilities}
    (stage : Stage client server s) (left : s.client = .returned forClient) (right : s.server = .returned forServer) :
    forClient = clientOutcome client server ∧ forServer = serverOutcome client server := by
  cases stage with
  | opening => cases left
  | asked whole => cases left
  | answered whole => cases left
  | done =>
    cases left
    cases right
    exact ⟨rfl, rfl⟩

/-! ## Shared capabilities -/

theorem shared_bit (i : Nat) (first second : UInt16) {mask : UInt16} (single : mask.toNat = 2 ^ i) :
    decide (first &&& second &&& mask ≠ 0) = (decide (first &&& mask ≠ 0) && decide (second &&& mask ≠ 0)) := by
  have set (x : UInt16) : decide (x &&& mask ≠ 0) = x.toNat.testBit i := by
    have positive := Nat.two_pow_pos i
    rw [Bool.eq_iff_iff, decide_eq_true_iff, ← UInt16.toNat_inj.ne, UInt16.toNat_and, single, Nat.and_two_pow]
    cases x.toNat.testBit i with
    | false => simp
    | true => simp
  rw [set, set, set, UInt16.toNat_and, Nat.testBit_and]

theorem fromIntersect_reuse (first second : Capabilities) (version : UInt8) :
    (NegotiatedCapabilities.fromIntersect first second version).reuse = (first.reuse && second.reuse) :=
  shared_bit 0 first second rfl

theorem fromIntersect_keepalive (first second : Capabilities) (version : UInt8) :
    (NegotiatedCapabilities.fromIntersect first second version).keepalive = (first.keepalive && second.keepalive) :=
  shared_bit 1 first second rfl

/-- However the two run and the bytes arrive, they can come to an end; and when both have returned they
have the same capabilities, those that both offered, or both have an error, the client's with the
reason the server gave. -/
theorem releases_agree (client server : Release) (events : List Event) (s : Exchange)
    (ran : run (step client server) start events = some s) :
    (∃ more, run (step client server) s more = some (final client server)) ∧
      ∀ forClient forServer, s.client = .returned forClient → s.server = .returned forServer →
        (∀ x, forClient = .ok x ↔ forServer = .ok x) ∧
        (∀ x, forClient = .ok x → x.reuse = (client.caps.reuse && server.caps.reuse) ∧
          x.keepalive = (client.caps.keepalive && server.caps.keepalive)) ∧
        ∀ err, forClient = .error err → (∃ refusal, forServer = .error refusal) ∧
          ∃ reason, reply client server = .close reason ∧ err = .serverRejected reason := by
  have stage := run_stage ran
  refine ⟨stage_finishes stage, ?_⟩
  intro forClient forServer left right
  obtain ⟨rfl, rfl⟩ := returned_stage stage left right
  by_cases accepted : client.version ≤ server.version
  · obtain ⟨atServer, atClient⟩ := outcomes_accepted accepted
    rw [atServer, atClient]
    refine ⟨fun x => Iff.rfl, ?_, nofun⟩
    intro x same
    cases same
    exact ⟨fromIntersect_reuse .., fromIntersect_keepalive ..⟩
  · obtain ⟨atServer, atClient⟩ := outcomes_refused accepted
    rw [atServer, atClient]
    refine ⟨fun x => iff_of_false nofun nofun, nofun, ?_⟩
    intro err same
    cases same
    exact ⟨⟨_, rfl⟩, _, if_neg accepted, rfl⟩

theorem releases_agree_newer_server :
    ∃ s, run (step ⟨1, 3⟩ ⟨2, 1⟩) start [.serverReads 4, .clientWrites, .serverReads 2, .clientReads 1, .serverReads 9,
        .clientReads 3, .clientReads 3] = some s ∧
      ∀ forClient forServer, s.client = .returned forClient → s.server = .returned forServer →
        ∀ x, forClient = .ok x ↔ forServer = .ok x := by
  obtain ⟨s, ran⟩ := Option.isSome_iff_exists.mp (by decide +kernel :
    (run (step ⟨1, 3⟩ ⟨2, 1⟩) start [.serverReads 4, .clientWrites, .serverReads 2, .clientReads 1, .serverReads 9,
      .clientReads 3, .clientReads 3]).isSome = true)
  refine ⟨s, ran, ?_⟩
  intro forClient forServer left right
  exact ((releases_agree ⟨1, 3⟩ ⟨2, 1⟩ _ s ran).2 forClient forServer left right).1

end Exchange
end NoisyShuttle.Session
