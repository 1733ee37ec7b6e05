import NoisyShuttle.Lib.Conduit
import NoisyShuttle.Lib.Run
import NoisyShuttle.Shuttle.Remote

/-!
# The framed relay as a copy in both directions

One request: `relay_tcp_frames` between the inbound application and the session, `relay_framed_tcp`
between the session and the target, with the frames in flight between them. Frames arrive whole and in
order, and no read or write fails.
-/

namespace NoisyShuttle.Shuttle
open Session

/-- What `copy_bidirectional` has sent to its second and to its first side when it returns. -/
def copyBidirectional (initial inbound target : Bytes) : Bytes × Bytes := (initial ++ inbound, target)

def carried : Frame → Bytes
  | .data bytes => bytes
  | _ => []

def EndsStream (frame : Frame) : Prop := ∃ reason, frame = .endRequest reason

def Relayed (frame : Frame) : Prop := (∃ bytes, frame = .data bytes) ∨ EndsStream frame

abbrev RelayResult := Except RelayError (Nat × Nat)

inductive ClientEnd where
  | opening (outbuf : Option Bytes)
  | relaying (relay : ClientRelay)
  | returned (result : RelayResult)
  deriving DecidableEq

inductive ServerEnd where
  | relaying (relay : ServerRelay)
  | returned (result : RelayResult)
  deriving DecidableEq

/-- `up` leads from the application to the target, `down` from the target to the application. -/
structure Transfer where
  client : ClientEnd
  server : ServerEnd
  up : Conduit UInt8 Frame
  down : Conduit UInt8 Frame
  deriving DecidableEq

/-- A read is given by the number of bytes it returns. -/
inductive TransferEvent where
  | firstPacket (n : Nat)
  | inbound (n : Nat)
  | clientFrame
  | target (n : Nat)
  | serverFrame
  | shutdownChanged (shutdown : Bool)
  | drainTimeout
  deriving DecidableEq

/-- A read into a buffer of 16 KiB returns nothing only at the end of the stream. -/
def readable (n : Nat) (unread : Bytes) : Bool := n ≤ 16 * 1024 ∧ n ≤ unread.length ∧ (n = 0 → unread = [])

def initialPayload : Option Bytes → Bytes
  | none => []
  | some outbuf =>
    match trojanHeaderLen outbuf with
    | .ok headerLen => outbuf.drop headerLen
    | .error _ => []

def ServerEnd.resume (next : ServerRelay) : ServerEnd :=
  if next.bothEnded then .returned (.ok (next.tx, next.rx)) else .relaying next

def ClientEnd.ahead : ClientEnd → Bytes
  | .opening outbuf => initialPayload outbuf
  | _ => []

namespace Transfer

/-- `relay_tcp_frames` before its loop; the first read takes what `outbuf` has room for. -/
def openWith (outbuf : Bytes) (n : Nat) (s : Transfer) : Option Transfer :=
  match trojanHeaderLen outbuf with
  | .error err => some { s with client := .returned (.error err) }
  | .ok headerLen =>
    if n ≤ maxFirstPacketSize - outbuf.length ∧ n ≤ s.up.unread.length then
      match outbuf.drop headerLen ++ s.up.unread.take n with
      | [] => some { s with client := .relaying ⟨false, 0, 0⟩, up := s.up.skip n }
      | data =>
        -- a longer frame cannot be encoded: the client panics, and there is no next state
        if (Frame.data data).Sized then
          some { s with client := .relaying ⟨false, data.length, 0⟩, up := (s.up.skip n).push (.data data) }
        else none
    else none

def clientBranch (branch : Branch ClientRelay) (s : Transfer) : Transfer :=
  match branch with
  | .send frame next => { s with client := .relaying next, up := s.up.push frame }
  | .deliver bytes next => { s with client := .relaying next, down := s.down.deliver bytes }
  | .halfClose next | .proceed next => { s with client := .relaying next }
  | .finish result => { s with client := .returned result }

def serverBranch (branch : Branch ServerRelay) (s : Transfer) : Transfer :=
  match branch with
  | .send frame next => { s with server := .resume next, down := s.down.push frame }
  | .deliver bytes next => { s with server := .resume next, up := s.up.deliver bytes }
  | .halfClose next | .proceed next => { s with server := .resume next }
  | .finish result => { s with server := .returned result }

def clientStep (s : Transfer) : TransferEvent → Option Transfer
  | .firstPacket n =>
    match s.client with
    | .opening (some outbuf) => s.openWith outbuf n
    | .opening none => if n = 0 then some { s with client := .relaying ⟨false, 0, 0⟩ } else none
    | _ => none
  | .inbound n =>
    match s.client with
    | .relaying relay =>
      if relay.clientClosed ∨ ¬ readable n s.up.unread then none
      else some ({ s with up := s.up.skip n }.clientBranch (relay.inboundRead (.ok (s.up.unread.take n))))
    | _ => none
  | .clientFrame =>
    match s.client, s.down.queue with
    | .relaying relay, frame :: _ => some ({ s with down := s.down.pop }.clientBranch (relay.frameRead (.ok frame)))
    | _, _ => none
  | _ => none

def serverStep (relay : ServerRelay) (s : Transfer) : TransferEvent → Option Transfer
  | .target n =>
    if relay.targetEnded ∨ ¬ readable n s.down.unread then none
    else some ({ s with down := s.down.skip n }.serverBranch (relay.targetRead (.ok (s.down.unread.take n))))
  | .serverFrame =>
    match s.up.queue with
    | frame :: _ =>
      if relay.clientEnded then none
      else some ({ s with up := s.up.pop }.serverBranch (relay.frameRead (.ok frame)))
    | [] => none
  | .shutdownChanged shutdown =>
    if relay.draining then none else some (s.serverBranch (relay.shutdownChanged shutdown))
  | .drainTimeout => if relay.draining then some (s.serverBranch ServerRelay.drainTimeout) else none
  | _ => none

def step (s : Transfer) (event : TransferEvent) : Option Transfer :=
  match event with
  | .firstPacket _ | .inbound _ | .clientFrame => s.clientStep event
  | .target _ | .serverFrame | .shutdownChanged _ | .drainTimeout =>
    match s.server with
    | .relaying relay => s.serverStep relay event
    | .returned _ => none

/-- The application writes `inbound` before its end of stream, the target writes `target`. -/
def start (outbuf : Option Bytes) (shutdown : Bool) (inbound target : Bytes) : Transfer :=
  ⟨.opening outbuf, .relaying (.start shutdown), .fresh inbound, .fresh target⟩

/-- The way to the target with what of the payload came with the header and is not sent yet. -/
def upstream (s : Transfer) : Conduit UInt8 Frame := { s.up with unread := s.client.ahead ++ s.up.unread }

/-- What the target has been sent, or will be as long as the server's loop goes on. -/
def destined (s : Transfer) : Bytes :=
  match s.server with
  | .relaying _ => s.up.delivered ++ s.up.inFlight carried
  | .returned _ => s.up.delivered

/-- The step leaves something of the application behind: the client ends with the target although the
application has more to read, or the server gives up with something on its way. -/
def abandons (s : Transfer) : TransferEvent → Bool
  | .clientFrame =>
    match s.client, s.down.queue with
    | .relaying _, .endRequest _ :: _ => !s.up.unread.isEmpty
    | _, _ => false
  | .drainTimeout => !(s.upstream.undelivered carried).isEmpty
  | _ => false

/-! ### One step -/

/-- The steps when only data and ends of requests are in flight. -/
inductive Moves (s : Transfer) : TransferEvent → Transfer → Prop
  | rejected {n outbuf err} (client : s.client = .opening (some outbuf)) (cut : trojanHeaderLen outbuf = .error err) :
    Moves s (.firstPacket n) { s with client := .returned (.error err) }
  | opens {n outbuf} (client : s.client = .opening outbuf) (none : initialPayload outbuf ++ s.up.unread.take n = [])
    (fits : n ≤ s.up.unread.length) : Moves s (.firstPacket n) { s with client := .relaying ⟨false, 0, 0⟩ }
  | first {n outbuf relay} (client : s.client = .opening outbuf) :
    Moves s (.firstPacket n)
      { s with
        client := .relaying relay
        up := (s.up.skip n).push (.data (initialPayload outbuf ++ s.up.unread.take n)) }
  | reads {n relay next bytes} (client : s.client = .relaying relay) (part : s.up.unread.take n = bytes) :
    Moves s (.inbound n) { s with client := .relaying next, up := (s.up.skip n).push (.data bytes) }
  | ends {n relay next reason} (client : s.client = .relaying relay) (done : s.up.unread = []) :
    Moves s (.inbound n)
      { s with client := .relaying next, up := (s.up.skip n).push (.endRequest reason) }
  | receives {relay next bytes rest} (client : s.client = .relaying relay) (head : s.down.queue = .data bytes :: rest) :
    Moves s .clientFrame { s with client := .relaying next, down := s.down.pop.deliver bytes }
  | returns {relay counts reason rest} (client : s.client = .relaying relay)
    (head : s.down.queue = .endRequest reason :: rest) :
    Moves s .clientFrame { s with client := .returned (.ok counts), down := s.down.pop }
  | responds {n relay next bytes} (server : s.server = .relaying relay)
    (same : next.clientEnded = relay.clientEnded) (part : s.down.unread.take n = bytes) :
    Moves s (.target n) { s with server := .resume next, down := (s.down.skip n).push (.data bytes) }
  | finishes {n relay next reason} (server : s.server = .relaying relay)
    (same : next.clientEnded = relay.clientEnded) (done : s.down.unread = []) :
    Moves s (.target n)
      { s with server := .resume next, down := (s.down.skip n).push (.endRequest reason) }
  | forwards {relay next bytes rest} (server : s.server = .relaying relay)
    (same : next.clientEnded = relay.clientEnded) (head : s.up.queue = .data bytes :: rest) :
    Moves s .serverFrame { s with server := .resume next, up := s.up.pop.deliver bytes }
  | halfCloses {relay next reason rest} (server : s.server = .relaying relay)
    (head : s.up.queue = .endRequest reason :: rest) :
    Moves s .serverFrame { s with server := .resume next, up := s.up.pop }
  | notices {relay next shutdown} (server : s.server = .relaying relay)
    (same : next.clientEnded = relay.clientEnded) :
    Moves s (.shutdownChanged shutdown) { s with server := .resume next }
  | timesOut {relay err} (server : s.server = .relaying relay) :
    Moves s .drainTimeout { s with server := .returned (.error err) }

variable {s next : Transfer}

theorem readable_nil {n : Nat} {unread : Bytes} (h : readable n unread = true) (none : unread.take n = []) :
    unread = [] := by
  obtain ⟨-, -, atEnd⟩ := of_decide_eq_true h
  rcases List.take_eq_nil_iff.mp none with zero | empty
  · exact atEnd zero
  · exact empty

theorem openWith_moves {outbuf : Bytes} {n : Nat} (client : s.client = .opening (some outbuf))
    (h : s.openWith outbuf n = some next) : Moves s (.firstPacket n) next := by
  unfold openWith at h
  split at h
  · next err cut =>
    cases h
    exact .rejected client cut
  · next headerLen whole =>
    have payload : initialPayload (some outbuf) = outbuf.drop headerLen := by rw [initialPayload, whole]
    split at h
    · next fits =>
      split at h
      · next none =>
        have all : s.up.skip n = s.up := by
          rw [Conduit.skip]
          rcases List.append_eq_nil_iff.mp none with ⟨-, nothing⟩
          rcases List.take_eq_nil_iff.mp nothing with rfl | empty
          · rfl
          · rw [empty, List.drop_nil, ← empty]
        rw [all] at h
        cases h
        exact .opens client (payload ▸ none) fits.2
      · next data =>
        split at h
        · cases h
          rw [← payload]
          exact .first client
        · cases h
    · cases h

theorem clientStep_moves {event : TransferEvent} (relayed : ∀ frame ∈ s.down.queue, Relayed frame)
    (h : s.clientStep event = some next) : Moves s event next := by
  cases event with
  | firstPacket n =>
    simp only [clientStep] at h
    split at h
    · next outbuf client => exact openWith_moves client h
    · next client =>
      split at h
      · next none =>
        cases h
        subst none
        exact .opens client rfl (Nat.zero_le _)
      · cases h
    · cases h
  | inbound n =>
    simp only [clientStep] at h
    split at h
    · next relay client =>
      split at h
      · cases h
      · next allowed =>
        obtain ⟨-, some⟩ := not_or.mp allowed
        cases taken : s.up.unread.take n with
        | nil =>
          rw [taken] at h
          cases h
          exact .ends client (readable_nil (not_not.mp some) taken)
        | cons byte more =>
          rw [taken] at h
          cases h
          exact .reads client taken
    · cases h
  | clientFrame =>
    simp only [clientStep] at h
    split at h
    · next relay frame rest client head =>
      rcases relayed frame (by rw [head]; exact List.mem_cons_self) with ⟨bytes, rfl⟩ | ⟨reason, rfl⟩
      · cases h
        exact .receives client head
      · cases h
        exact .returns client head
    · cases h
  | _ => cases h

theorem serverStep_moves {relay : ServerRelay} {event : TransferEvent} (server : s.server = .relaying relay)
    (relayed : ∀ frame ∈ s.up.queue, Relayed frame) (h : s.serverStep relay event = some next) :
    Moves s event next := by
  cases event with
  | target n =>
    simp only [serverStep] at h
    split at h
    · cases h
    · next allowed =>
      obtain ⟨-, some⟩ := not_or.mp allowed
      cases taken : s.down.unread.take n with
      | nil =>
        rw [taken] at h
        cases h
        exact .finishes server rfl (readable_nil (not_not.mp some) taken)
      | cons byte more =>
        rw [taken] at h
        cases h
        exact .responds server rfl taken
  | serverFrame =>
    simp only [serverStep] at h
    split at h
    · next frame rest head =>
      split at h
      · cases h
      · rcases relayed frame (by rw [head]; exact List.mem_cons_self) with ⟨bytes, rfl⟩ | ⟨reason, rfl⟩
        · cases h
          exact .forwards server rfl head
        · cases h
          exact .halfCloses server head
    · cases h
  | shutdownChanged shutdown =>
    simp only [serverStep] at h
    split at h
    · cases h
    · cases h
      apply Moves.notices server
      split <;> rfl
  | drainTimeout =>
    simp only [serverStep] at h
    split at h
    · cases h
      exact .timesOut server
    · cases h
  | _ => cases h

theorem step_moves {event : TransferEvent} (up : ∀ frame ∈ s.up.queue, Relayed frame)
    (down : ∀ frame ∈ s.down.queue, Relayed frame) (h : s.step event = some next) : Moves s event next := by
  unfold step at h
  split at h
  · exact clientStep_moves down h
  · exact clientStep_moves down h
  · exact clientStep_moves down h
  all_goals
    split at h
    · next relay server => exact serverStep_moves server up h
    · cases h

/-! ### What is on its way -/

abbrev Flows (total : Bytes) (c : Conduit UInt8 Frame) : Prop := c.Carries carried EndsStream Relayed total

abbrev Step : Conduit UInt8 Frame → Conduit UInt8 Frame → Prop := Conduit.Step carried EndsStream Relayed

section
variable {c : Conduit UInt8 Frame} {n : Nat} {bytes : Bytes} {reason : UInt8} {rest : List Frame}

theorem data_cut (part : c.unread.take n = bytes) : Step c ((c.skip n).push (.data bytes)) := by
  have relayed : Relayed (.data bytes) := Or.inl ⟨bytes, rfl⟩
  exact .cut relayed part.symm nofun

theorem end_cut (done : c.unread = []) : Step c ((c.skip n).push (.endRequest reason)) := by
  have relayed : Relayed (.endRequest reason) := Or.inr ⟨reason, rfl⟩
  refine .cut relayed ?_ ?_
  · rw [done, List.take_nil]
    rfl
  · intro _
    rw [done, List.drop_nil]

theorem data_take (head : c.queue = .data bytes :: rest) : Step c (c.pop.deliver bytes) := .take head

theorem end_take (head : c.queue = .endRequest reason :: rest) : Step c c.pop := by
  have taken : Step c (c.pop.deliver []) := .take head
  rwa [Conduit.deliver, List.append_nil] at taken

end

theorem upstream_eq (s : Transfer) (none : s.client.ahead = []) : s.upstream = s.up := by
  rw [upstream, none]
  rfl

theorem upstream_relaying {relay : ClientRelay} (client : s.client = .relaying relay) : s.upstream = s.up := by
  apply upstream_eq
  rw [client]
  rfl

theorem Moves.up {event : TransferEvent} (h : Moves s event next) :
    next.upstream = s.upstream ∨ Step s.upstream next.upstream := by
  cases h with
  | @rejected n outbuf err client cut =>
    left
    have none : s.client.ahead = [] := by
      rw [client, ClientEnd.ahead, initialPayload, cut]
    rw [upstream_eq s none]
    rfl
  | @opens n outbuf client none fits =>
    left
    have none : s.client.ahead = [] := by
      rw [client]
      exact (List.append_eq_nil_iff.mp none).1
    rw [upstream_eq s none]
    rfl
  | @first n outbuf relay client =>
    right
    have ahead : s.upstream.unread = initialPayload outbuf ++ s.up.unread := by
      rw [upstream, client]
      rfl
    have cut : Step s.upstream ((s.upstream.skip ((initialPayload outbuf).length + n)).push
        (.data (initialPayload outbuf ++ s.up.unread.take n))) := by
      apply data_cut
      rw [ahead, List.take_length_add_append]
    rw [Conduit.skip, ahead, List.drop_length_add_append] at cut
    exact cut
  | reads client part =>
    right
    rw [upstream_relaying client]
    exact data_cut part
  | ends client done =>
    right
    rw [upstream_relaying client]
    exact end_cut done
  | receives client head =>
    left
    rw [upstream_relaying client]
    rfl
  | returns client head =>
    left
    rw [upstream_relaying client]
    rfl
  | @forwards relay next bytes rest server same head =>
    right
    have queue : s.upstream.queue = .data bytes :: rest := head
    exact data_take queue
  | @halfCloses relay next reason rest server head =>
    right
    have queue : s.upstream.queue = .endRequest reason :: rest := head
    exact end_take queue
  | responds server same part => exact Or.inl rfl
  | finishes server same done => exact Or.inl rfl
  | notices server same => exact Or.inl rfl
  | timesOut server => exact Or.inl rfl

theorem Moves.down {event : TransferEvent} (h : Moves s event next) :
    next.down = s.down ∨ Step s.down next.down := by
  cases h with
  | receives client head => exact Or.inr (data_take head)
  | returns client head => exact Or.inr (end_take head)
  | responds server same part => exact Or.inr (data_cut part)
  | finishes server same done => exact Or.inr (end_cut done)
  | _ => exact Or.inl rfl

theorem end_last {total : Bytes} {c : Conduit UInt8 Frame} {reason : UInt8} {rest : List Frame}
    (flows : Flows total c) (head : c.queue = .endRequest reason :: rest) : c.pop.undelivered carried = [] :=
  flows.ended head ⟨reason, rfl⟩

end Transfer

def ClientEnd.isReturned : ClientEnd → Bool
  | .returned _ => true
  | _ => false

theorem ClientEnd.eq_returned {client : ClientEnd} (h : client.isReturned = true) :
    ∃ result, client = .returned result := by
  cases client with
  | returned result => exact ⟨result, rfl⟩
  | _ => cases h

/-- The server has taken the client's end of the request. -/
def ServerEnd.hasAll : ServerEnd → Bool
  | .relaying relay => relay.clientEnded
  | .returned (.ok _) => true
  | .returned (.error _) => false

theorem ServerEnd.hasAll_resume (next : ServerRelay) : (ServerEnd.resume next).hasAll = next.clientEnded := by
  unfold resume
  split
  · next both => exact (Bool.and_eq_true_iff.mp both).1.symm
  · rfl

theorem ServerEnd.resume_ne_error (next : ServerRelay) (err : RelayError) : resume next ≠ .returned (.error err) := by
  unfold resume
  split <;> nofun

namespace Transfer

structure Conserved (total reply : Bytes) (s : Transfer) : Prop where
  up : Flows total s.upstream
  down : Flows reply s.down
  ended : s.server.hasAll = true → s.upstream.undelivered carried = []
  returned : ∀ counts, s.client = .returned (.ok counts) → s.down.delivered = reply

variable {s next : Transfer} {total reply : Bytes} {event : TransferEvent} {missed : Nat}

theorem hasAll_of_resume {relay after : ServerRelay} (server : s.server = .relaying relay)
    (same : after.clientEnded = relay.clientEnded) (all : (ServerEnd.resume after).hasAll = true) :
    s.server.hasAll = true := by
  rw [ServerEnd.hasAll_resume, same] at all
  rw [server]
  exact all

theorem Moves.hasAll (h : Moves s event next) (flows : Flows total s.upstream) (all : next.server.hasAll = true) :
    s.server.hasAll = true ∨ next.upstream.undelivered carried = [] := by
  cases h with
  | responds server same part => exact Or.inl (hasAll_of_resume server same all)
  | finishes server same done => exact Or.inl (hasAll_of_resume server same all)
  | forwards server same head => exact Or.inl (hasAll_of_resume server same all)
  | notices server same => exact Or.inl (hasAll_of_resume server same all)
  | @halfCloses relay next reason rest server head =>
    right
    have queue : s.upstream.queue = .endRequest reason :: rest := head
    exact end_last flows queue
  | timesOut server => cases all
  | _ => exact Or.inl all

theorem Moves.returned (h : Moves s event next) (flows : Flows reply s.down) {counts : Nat × Nat}
    (done : next.client = .returned (.ok counts)) :
    next.down.delivered = reply ∨ s.client = .returned (.ok counts) ∧ next.down.delivered = s.down.delivered := by
  cases h with
  | returns client head =>
    left
    have kept := (flows.step (end_take head)).whole
    rw [Conduit.whole, end_last flows head, List.append_nil] at kept
    exact kept
  | responds server same part => exact Or.inr ⟨done, rfl⟩
  | finishes server same end_ => exact Or.inr ⟨done, rfl⟩
  | forwards server same head => exact Or.inr ⟨done, rfl⟩
  | halfCloses server head => exact Or.inr ⟨done, rfl⟩
  | notices server same => exact Or.inr ⟨done, rfl⟩
  | timesOut server => exact Or.inr ⟨done, rfl⟩
  | _ => cases done

theorem Moves.conserved (conserved : s.Conserved total reply) (h : Moves s event next) :
    next.Conserved total reply := by
  refine ⟨?_, ?_, ?_, ?_⟩
  · rcases h.up with same | step
    · rw [same]
      exact conserved.up
    · exact conserved.up.step step
  · rcases h.down with same | step
    · rw [same]
      exact conserved.down
    · exact conserved.down.step step
  · intro all
    rcases h.hasAll conserved.up all with before | none
    · have none := conserved.ended before
      rcases h.up with same | step
      · rw [same]
        exact none
      · exact Conduit.undelivered_nil_step step none
    · exact none
  · intro counts done
    rcases h.returned conserved.down done with now | ⟨before, same⟩
    · exact now
    · rw [same]
      exact conserved.returned counts before

/-! ### What is left behind -/

structure Kept (missed : Nat) (s : Transfer) : Prop where
  read : missed = 0 → ∀ counts, s.client = .returned (.ok counts) → s.up.unread = []
  sent : missed = 0 → ∀ err, s.server = .returned (.error err) → s.upstream.undelivered carried = []
  lost : 0 < missed → (∃ result, s.client = .returned result ∧ s.up.unread ≠ []) ∨
    ∃ err, s.server = .returned (.error err) ∧ s.upstream.undelivered carried ≠ []

theorem Moves.undelivered (h : Moves s event next) (same : next.up.delivered = s.up.delivered) :
    next.upstream.undelivered carried = s.upstream.undelivered carried := by
  rcases h.up with unchanged | step
  · rw [unchanged]
  · exact Conduit.undelivered_step step same

theorem Kept.ofClient (kept : s.Kept missed) (h : Moves s event next) (busy : s.client.isReturned = false)
    (still : ∀ counts, next.client ≠ .returned (.ok counts)) (server : next.server = s.server)
    (same : next.up.delivered = s.up.delivered) : next.Kept missed := by
  have undelivered := h.undelivered same
  refine ⟨fun _ counts done => absurd done (still counts), ?_, ?_⟩
  · rw [server, undelivered]
    exact kept.sent
  · intro some
    rw [server, undelivered]
    rcases kept.lost some with ⟨result, done, -⟩ | failed
    · rw [done] at busy
      cases busy
    · exact Or.inr failed

theorem Kept.ofServer {relay : ServerRelay} (kept : s.Kept missed) (busy : s.server = .relaying relay)
    (alive : ∀ err, next.server ≠ .returned (.error err)) (client : next.client = s.client)
    (same : next.up.unread = s.up.unread) : next.Kept missed := by
  refine ⟨?_, fun _ err failed => absurd failed (alive err), ?_⟩
  · rw [client, same]
    exact kept.read
  · intro some
    rw [client, same]
    rcases kept.lost some with left | ⟨err, failed, -⟩
    · exact Or.inl left
    · rw [busy] at failed
      cases failed

theorem Kept.ofReturn (kept : s.Kept missed) (h : Moves s event next) (busy : s.client.isReturned = false)
    (done : next.client.isReturned = true) (server : next.server = s.server) (same : next.up = s.up)
    (cost : s.abandons event = !s.up.unread.isEmpty) : next.Kept (missed + (s.abandons event).toNat) := by
  have undelivered := h.undelivered (by rw [same])
  rw [cost]
  refine ⟨?_, ?_, ?_⟩
  · intro none counts _
    obtain ⟨-, empty⟩ := Nat.add_eq_zero_iff.mp none
    rw [same]
    simpa using empty
  · intro none
    rw [server, undelivered]
    exact kept.sent (Nat.add_eq_zero_iff.mp none).1
  · intro some
    rw [same, server, undelivered]
    by_cases left : s.up.unread = []
    · rw [left] at some
      rcases kept.lost some with ⟨result, earlier, -⟩ | failed
      · rw [earlier] at busy
        cases busy
      · exact Or.inr failed
    · obtain ⟨result, done⟩ := ClientEnd.eq_returned done
      exact Or.inl ⟨result, done, left⟩

theorem Kept.ofTimeout {relay : ServerRelay} {err : RelayError} (kept : s.Kept missed)
    (busy : s.server = .relaying relay) :
    { s with server := .returned (.error err) : Transfer }.Kept (missed + (s.abandons .drainTimeout).toNat) := by
  have same : { s with server := .returned (.error err) : Transfer }.upstream = s.upstream := rfl
  refine ⟨?_, ?_, ?_⟩
  · intro none
    exact kept.read (Nat.add_eq_zero_iff.mp none).1
  · intro none _ _
    obtain ⟨-, empty⟩ := Nat.add_eq_zero_iff.mp none
    rw [same]
    simpa [abandons] using empty
  · intro some
    by_cases left : s.upstream.undelivered carried = []
    · rw [abandons, left] at some
      rcases kept.lost some with read | ⟨err, failed, -⟩
      · exact Or.inl read
      · rw [busy] at failed
        cases failed
    · exact Or.inr ⟨err, rfl, left⟩

theorem Moves.kept (kept : s.Kept missed) (h : Moves s event next) :
    next.Kept (missed + (s.abandons event).toNat) := by
  have move := h
  cases h with
  | rejected client cut => exact kept.ofClient move (by rw [client]; rfl) (fun _ => nofun) rfl rfl
  | opens client none fits => exact kept.ofClient move (by rw [client]; rfl) (fun _ => nofun) rfl rfl
  | first client => exact kept.ofClient move (by rw [client]; rfl) (fun _ => nofun) rfl rfl
  | reads client part => exact kept.ofClient move (by rw [client]; rfl) (fun _ => nofun) rfl rfl
  | ends client done => exact kept.ofClient move (by rw [client]; rfl) (fun _ => nofun) rfl rfl
  | receives client head =>
    have quiet : s.abandons .clientFrame = false := by rw [abandons, client, head]
    rw [quiet]
    exact kept.ofClient move (by rw [client]; rfl) (fun _ => nofun) rfl rfl
  | returns client head =>
    have cost : s.abandons .clientFrame = !s.up.unread.isEmpty := by rw [abandons, client, head]
    exact kept.ofReturn move (by rw [client]; rfl) rfl rfl rfl cost
  | responds server same part => exact kept.ofServer server (ServerEnd.resume_ne_error _) rfl rfl
  | finishes server same done => exact kept.ofServer server (ServerEnd.resume_ne_error _) rfl rfl
  | forwards server same head => exact kept.ofServer server (ServerEnd.resume_ne_error _) rfl rfl
  | halfCloses server head => exact kept.ofServer server (ServerEnd.resume_ne_error _) rfl rfl
  | notices server same => exact kept.ofServer server (ServerEnd.resume_ne_error _) rfl rfl
  | timesOut server => exact kept.ofTimeout server

theorem start_conserved (outbuf : Option Bytes) (shutdown : Bool) (inbound target : Bytes) :
    (start outbuf shutdown inbound target).Conserved (initialPayload outbuf ++ inbound) target :=
  ⟨.fresh _, .fresh _, nofun, fun _ => nofun⟩

theorem start_kept (outbuf : Option Bytes) (shutdown : Bool) (inbound target : Bytes) :
    (start outbuf shutdown inbound target).Kept 0 :=
  ⟨fun _ _ => nofun, fun _ _ => nofun, nofun⟩

theorem step_kept (total reply : Bytes) (missed : Nat) (s : Transfer) (event : TransferEvent) (next : Transfer)
    (inv : s.Conserved total reply ∧ s.Kept missed) (h : s.step event = some next) :
    next.Conserved total reply ∧ next.Kept (missed + (s.abandons event).toNat) := by
  obtain ⟨conserved, kept⟩ := inv
  have move := step_moves conserved.up.fits conserved.down.fits h
  exact ⟨move.conserved conserved, move.kept kept⟩

theorem destined_relaying {relay : ServerRelay} (server : s.server = .relaying relay) :
    s.destined = s.up.delivered ++ s.up.inFlight carried := by
  rw [destined, server]

theorem destined_returned {result : RelayResult} (server : s.server = .returned result) :
    s.destined = s.up.delivered := by
  rw [destined, server]

theorem destined_length (s : Transfer) :
    s.destined.length ≤ s.up.delivered.length + (s.up.inFlight carried).length := by
  cases server : s.server with
  | relaying relay =>
    apply Nat.le_of_eq
    rw [destined_relaying server, List.length_append]
  | returned result =>
    rw [destined_returned server]
    exact Nat.le_add_right _ _

theorem destined_eq_iff {counts : Nat × Nat} (conserved : s.Conserved total reply) (kept : s.Kept missed)
    (done : s.client = .returned (.ok counts)) : s.destined = total ↔ missed = 0 := by
  have whole := conserved.up.whole
  have ended := conserved.ended
  have sent := kept.sent
  have lost := kept.lost
  have all : s.upstream = s.up := by
    apply upstream_eq
    rw [done]
    rfl
  rw [all] at whole ended sent lost
  rw [Conduit.whole] at whole
  constructor
  · intro same
    by_contra some
    rcases lost (Nat.pos_of_ne_zero some) with ⟨result, -, left⟩ | ⟨err, failed, left⟩
    · have short := s.destined_length
      have positive := List.length_pos_iff.mpr left
      have size := congrArg List.length whole
      rw [Conduit.undelivered, List.length_append, List.length_append, ← same] at size
      omega
    · rw [destined_returned failed, ← whole] at same
      exact left (List.append_right_eq_self.mp same.symm)
  · intro none
    cases server : s.server with
    | relaying relay =>
      rw [Conduit.undelivered, kept.read none counts done, List.append_nil] at whole
      rw [destined_relaying server, whole]
    | returned result =>
      have empty : s.up.undelivered carried = [] := by
        cases result with
        | ok value =>
          apply ended
          rw [server]
          rfl
        | error err => exact sent none err server
      rw [empty, List.append_nil] at whole
      rw [destined_returned server, whole]

end Transfer

/-- When `relay_tcp_frames` has returned, both sides have got, or the target will still get, what
`copy_bidirectional` would have sent them, exactly if nothing of the application was left behind. -/
theorem framed_copy_iff (outbuf : Option Bytes) (shutdown : Bool) (inbound target : Bytes)
    (events : List TransferEvent) (final : Transfer) (counts : Nat × Nat)
    (h : run Transfer.step (.start outbuf shutdown inbound target) events = some final)
    (done : final.client = .returned (.ok counts)) :
    (final.destined, final.down.delivered) = copyBidirectional (initialPayload outbuf) inbound target ↔
      Guarded Transfer.step (fun s event => s.abandons event = false) (.start outbuf shutdown inbound target)
        events := by
  have preserve := Transfer.step_kept (initialPayload outbuf ++ inbound) target
  obtain ⟨conserved, kept⟩ := total_invariant preserve
    ⟨Transfer.start_conserved outbuf shutdown inbound target, Transfer.start_kept outbuf shutdown inbound target⟩ h
  rw [Nat.zero_add] at kept
  rw [guarded_iff_total, ← Transfer.destined_eq_iff conserved kept done, copyBidirectional, Prod.mk.injEq]
  exact and_iff_left (conserved.returned counts done)

/-- A request with one byte of payload behind its header; the application writes two more and closes, then
the target answers and closes. -/
def applicationFirst : List TransferEvent :=
  [.firstPacket 1, .serverFrame, .inbound 1, .inbound 0, .target 1, .serverFrame, .target 0, .clientFrame,
   .clientFrame, .serverFrame]

def loopbackHeader : Bytes := [0x01, 0x01, 127, 0, 0, 1, 0, 80, 0x0d, 0x0a]

theorem framed_copy_applicationFirst :
    ∃ final counts, run Transfer.step (.start (some (loopbackHeader ++ [5])) false [6, 7] [9]) applicationFirst =
        some final ∧
      final.client = .returned (.ok counts) ∧
      (final.destined, final.down.delivered) = copyBidirectional [5] [6, 7] [9] := by
  have ran : (run Transfer.step (.start (some (loopbackHeader ++ [5])) false [6, 7] [9]) applicationFirst).map
      (fun s => s.client) = some (.returned (.ok (3, 1))) := by decide +kernel
  obtain ⟨final, ran, done⟩ := Option.map_eq_some_iff.mp ran
  exact ⟨final, (3, 1), ran, done, (framed_copy_iff _ _ _ _ _ _ _ ran done).mpr (by decide +kernel)⟩

/-- The target answers and closes first, and the two bytes of the application are never read. -/
theorem framed_copy_drops_inbound :
    ∃ final, run Transfer.step (.start none false [6, 7] [9])
        [.firstPacket 0, .target 1, .target 0, .clientFrame, .clientFrame] = some final ∧
      final.client = .returned (.ok (0, 1)) ∧ final.destined = [] ∧ final.up.unread = [6, 7] ∧
      (final.destined, final.down.delivered) ≠ copyBidirectional [] [6, 7] [9] :=
  ⟨⟨.returned (.ok (0, 1)), .relaying ⟨false, true, false, 0, 1⟩, ⟨[6, 7], [], []⟩, ⟨[], [], [9]⟩⟩, by decide +kernel⟩

end NoisyShuttle.Shuttle
