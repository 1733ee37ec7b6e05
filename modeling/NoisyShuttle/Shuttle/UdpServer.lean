import NoisyShuttle.Lib.Lru
import NoisyShuttle.Lib.Run
import NoisyShuttle.Shuttle.Udp

/-!
# UDP on the server

`relay_udp`: datagrams that come out of the tunnel are sent from one UDP socket, and what that socket
receives goes back into the tunnel. The two halves run at the same time, and the first one to end ends the
relay. Names are resolved once and kept in a cache, so that the datagrams of one conversation go to one
address.
-/

namespace NoisyShuttle.Shuttle
open Tunnel (IoError earlyEof)

def maxCachedDomainAddrsPerSocket : Nat := 64

inductive SocketAddr where
  | v4 (ip : UInt32) (port : UInt16)
  | v6 (high low : UInt64) (port : UInt16)
  deriving DecidableEq

def SocketAddr.toAddr : SocketAddr → Addr
  | .v4 ip port => .v4 ip port
  | .v6 high low port => .v6 high low port

/-- The relay makes one error of its own, of the kind `InvalidInput`. -/
inductive UdpError where
  | ioError (err : IoError)
  | invalidInput (message : String)
  deriving DecidableEq

inductive UdpEnd where
  | closed (tx rx : Nat)
  | failed (err : UdpError)
  | panicked
  deriving DecidableEq

/-- A datagram sent from the socket: what it was sent for, and where it went. -/
structure Sending where
  payload : Bytes
  destAddr : Addr
  target : SocketAddr
  deriving DecidableEq

/-- `stream` is what the tunnel has still to deliver and `written` what it has taken. `reply` is the datagram that
goes back into it: the bytes the tunnel has not taken, and the size of the payload. `sent` is what has left the socket.
-/
structure UdpRelay where
  stream : Bytes
  resolvedAddrs : LruCache (Bytes × UInt16) SocketAddr
  tx : Nat
  rx : Nat
  reply : Option (Bytes × Nat)
  written : Bytes
  ended : Option UdpEnd
  sent : List Sending

def UdpRelay.new (stream : Bytes) : UdpRelay where
  stream := stream
  resolvedAddrs := LruCache.new maxCachedDomainAddrsPerSocket
  tx := 0
  rx := 0
  reply := none
  written := []
  ended := none
  sent := []

/-- A turn of `atob`, with the outcomes of `lookup_host`, should it be called, and of `send_to`. A turn of `btoa` in its
parts: the socket receives, the tunnel takes some bytes, all of them are flushed, or the tunnel fails. -/
inductive UdpEvent where
  | forward (lookup : Except IoError (List SocketAddr)) (send : Except IoError Unit)
  | receive (datagram : Except IoError (Bytes × SocketAddr))
  | write (n : Nat)
  | flush
  | writeFails (err : IoError)

namespace UdpRelay

variable (socks : Socks5Sync Addr)

def finish (s : UdpRelay) (ended : UdpEnd) : UdpRelay := { s with ended := some ended }

def sendTo (s : UdpRelay) (payload : Bytes) (destAddr : Addr) (target : SocketAddr) (send : Except IoError Unit) :
    UdpRelay :=
  match send with
  | .error err => s.finish (.failed (.ioError err))
  | .ok () => { s with tx := s.tx + payload.length, sent := s.sent ++ [⟨payload, destAddr, target⟩] }

/-- The address for `hp`, and the relay with its cache. -/
def resolve (s : UdpRelay) (hp : Bytes × UInt16) (lookup : Except IoError (List SocketAddr)) :
    Except UdpEnd SocketAddr × UdpRelay :=
  match s.resolvedAddrs.get hp with
  | (some sa, resolvedAddrs) => (.ok sa, { s with resolvedAddrs })
  | (none, resolvedAddrs) =>
    match lookup with
    | .error err => (.error (.failed (.ioError err)), { s with resolvedAddrs })
    | .ok [] => (.error (.failed (.invalidInput "no addresses to send data to")), { s with resolvedAddrs })
    | .ok (sa :: _) =>
      let s := { s with resolvedAddrs := resolvedAddrs.put hp sa }
      -- the source reads the address back as the first entry of the cache
      match s.resolvedAddrs.entries.head? with
      | some (_, sa) => (.ok sa, s)
      | none => (.error .panicked, s)

/-- A turn of `atob`. -/
def forward (s : UdpRelay) (lookup : Except IoError (List SocketAddr)) (send : Except IoError Unit) : UdpRelay :=
  match recvFrom socks.toSocks5 maxDatagramSize s.stream with
  | (.closed, stream) => { s with stream }.finish (.closed s.tx s.rx)
  | (.failed err, stream) => { s with stream }.finish (.failed (.ioError err))
  | (.panicked, stream) => { s with stream }.finish .panicked
  | (.datagram payload destAddr, stream) =>
    match destAddr with
    | .v4 ip port => { s with stream }.sendTo payload destAddr (.v4 ip port) send
    | .v6 high low port => { s with stream }.sendTo payload destAddr (.v6 high low port) send
    | .domain host port _ _ =>
      match { s with stream }.resolve (host, port) lookup with
      | (.ok sa, s) => s.sendTo payload destAddr sa send
      | (.error ended, s) => s.finish ended

/-- The buffer cuts off what is longer than a datagram may be. -/
def receive (s : UdpRelay) (datagram : Except IoError (Bytes × SocketAddr)) : UdpRelay :=
  match datagram with
  | .error err => s.finish (.failed (.ioError err))
  | .ok (payload, origAddr) => { s with
      reply := some (Shuttle.sendTo socks.toSocks5 (payload.take maxDatagramSize, origAddr.toAddr),
        (payload.take maxDatagramSize).length) }

/-- What `send_to` and `flush` do with the reply. -/
def answer (s : UdpRelay) (pending : Bytes) (size : Nat) : UdpEvent → Option UdpRelay
  | .write n =>
    if 0 < n ∧ n ≤ pending.length then
      some { s with written := s.written ++ pending.take n, reply := some (pending.drop n, size) }
    else none
  | .flush => if pending = [] then some { s with rx := s.rx + size, reply := none } else none
  | .writeFails err => some (s.finish (.failed (.ioError err)))
  | _ => none

/-- The first half to end ends the relay, and whatever the other was about to do is left undone. -/
def step (s : UdpRelay) (event : UdpEvent) : Option UdpRelay :=
  match s.ended, event, s.reply with
  | none, .forward lookup send, _ => some (s.forward socks lookup send)
  | none, .receive datagram, none => some (s.receive socks datagram)
  | none, event, some (pending, size) => s.answer pending size event
  | _, _, _ => none

end UdpRelay

/-! ## What is meant -/

def Sending.message (sending : Sending) : Bytes × Addr := (sending.payload, sending.destAddr)

/-- The name that a datagram was sent for, and the address it went to. -/
def Sending.use (sending : Sending) : Option ((Bytes × UInt16) × SocketAddr) :=
  match sending.destAddr with
  | .domain host port _ _ => some ((host, port), sending.target)
  | .v4 .. | .v6 .. => none

/-- What the resolver has to say in a turn of `atob`. -/
def UdpEvent.lookup : UdpEvent → Option (Except IoError (List SocketAddr))
  | .forward lookup _ => some lookup
  | _ => none

def lookups (events : List UdpEvent) : List (Except IoError (List SocketAddr)) := events.filterMap UdpEvent.lookup

/-- One of these turns sent a datagram for the name `hp`, and `sa` is the resolver's answer in it. -/
def Resolved (turns : List (Sending × Except IoError (List SocketAddr))) (hp : Bytes × UInt16) (sa : SocketAddr) :
    Prop :=
  ∃ first more, (first, .ok (sa :: more)) ∈ turns ∧ first.use = some (hp, sa)

/-- It went to the address itself, or to the one that the resolver gave for the name. -/
def Sending.Directed (turns : List (Sending × Except IoError (List SocketAddr))) (sending : Sending) : Prop :=
  sending.destAddr = sending.target.toAddr ∨
    ∃ hp, sending.use = some (hp, sending.target) ∧ Resolved turns hp sending.target

theorem Resolved.mono {turns more : List (Sending × Except IoError (List SocketAddr))} {hp : Bytes × UInt16}
    {sa : SocketAddr} (resolved : Resolved turns hp sa) (grown : turns ⊆ more) : Resolved more hp sa := by
  obtain ⟨first, others, turn, use⟩ := resolved
  exact ⟨first, others, grown turn, use⟩

theorem Sending.Directed.mono {turns more : List (Sending × Except IoError (List SocketAddr))} {sending : Sending}
    (directed : sending.Directed turns) (grown : turns ⊆ more) : sending.Directed more := by
  rcases directed with itself | ⟨hp, use, resolved⟩
  · exact Or.inl itself
  · exact Or.inr ⟨hp, use, resolved.mono grown⟩

def UdpEvent.received : UdpEvent → Option (Bytes × SocketAddr)
  | .receive (.ok (payload, origAddr)) => some (payload.take maxDatagramSize, origAddr)
  | _ => none

/-- What the socket has received, in this order. -/
def replies (events : List UdpEvent) : List (Bytes × SocketAddr) := events.filterMap UdpEvent.received

theorem replies_concat (past : List UdpEvent) (event : UdpEvent) :
    replies (past ++ [event]) = replies past ++ event.received.toList := by
  unfold replies
  rw [List.filterMap_append]
  cases received : event.received <;> simp [received]

theorem lookups_concat (past : List UdpEvent) (event : UdpEvent) :
    lookups (past ++ [event]) = lookups past ++ event.lookup.toList := by
  unfold lookups
  rw [List.filterMap_append]
  cases lookup : event.lookup <;> simp [lookup]

def payloads (replies : List (Bytes × SocketAddr)) : Nat := (replies.map Prod.fst).flatten.length

namespace UdpRelay

variable (socks : Socks5Sync Addr)

/-- The replies as the tunnel is to carry them. -/
def encoded (replies : List (Bytes × SocketAddr)) : Bytes :=
  (replies.map fun r => Shuttle.sendTo socks.toSocks5 (r.1, r.2.toAddr)).flatten

theorem encoded_concat (earlier : List (Bytes × SocketAddr)) (last : Bytes × SocketAddr) :
    encoded socks (earlier ++ [last]) =
      encoded socks earlier ++ Shuttle.sendTo socks.toSocks5 (last.1, last.2.toAddr) := by
  simp [encoded]

/-- The datagrams sent, each with what the resolver had to say in its turn. -/
def turns (s : UdpRelay) (past : List UdpEvent) : List (Sending × Except IoError (List SocketAddr)) :=
  s.sent.zip (lookups past)

def uses (s : UdpRelay) : List ((Bytes × UInt16) × SocketAddr) := s.sent.filterMap Sending.use

/-- The half that sends, on a tunnel that delivers `stream` in all, also when the relay has ended. -/
structure Forwards (stream : Bytes) (past : List UdpEvent) (s : UdpRelay) : Prop where
  sent : s.sent.map Sending.message <+: (received socks stream).1
  directed : ∀ sending ∈ s.sent, sending.Directed (s.turns past)
  sticky : LruCache.Sticky maxCachedDomainAddrsPerSocket s.uses
  tx : s.tx = (s.sent.map Sending.payload).flatten.length
  running : s.ended = none → s.sent.length = (lookups past).length ∧
    received socks stream = (s.sent.map Sending.message ++ (received socks s.stream).1, (received socks s.stream).2)
  closed : ∀ tx rx, s.ended = some (.closed tx rx) →
    tx = s.tx ∧ rx = s.rx ∧ received socks stream = (s.sent.map Sending.message, .closed)
  panicked : s.ended = some .panicked → (received socks stream).2 = .panicked

/-- The half that answers: the tunnel has taken a first part of the replies, all but the last one entirely, and
all of them while none is being written. -/
structure Answers (past : List UdpEvent) (s : UdpRelay) : Prop where
  written : s.written <+: encoded socks (replies past)
  flushed : ∃ done, done <+: replies past ∧ (replies past).length ≤ done.length + 1 ∧
    encoded socks done <+: s.written ∧ s.rx = payloads done
  idle : s.reply = none → s.written = encoded socks (replies past) ∧ s.rx = payloads (replies past)

/-- What holds besides while it runs. -/
structure Live (past : List UdpEvent) (s : UdpRelay) : Prop where
  capacity : s.resolvedAddrs.capacity = maxCachedDomainAddrsPerSocket
  remembers : s.resolvedAddrs.Remembers s.uses
  cached : ∀ hp sa, (hp, sa) ∈ s.resolvedAddrs.entries → Resolved (s.turns past) hp sa
  pending : ∀ rest size, s.reply = some (rest, size) → ∃ earlier last, replies past = earlier ++ [last] ∧
    size = last.1.length ∧ s.written ++ rest = encoded socks (replies past) ∧ encoded socks earlier <+: s.written ∧
    s.rx = payloads earlier

structure Inv (stream : Bytes) (past : List UdpEvent) (s : UdpRelay) : Prop where
  forwards : s.Forwards socks stream past
  answers : s.Answers socks past
  live : s.ended = none → s.Live socks past

variable {socks} {stream : Bytes} {past : List UdpEvent} {event : UdpEvent} {s after : UdpRelay}

theorem new_inv (stream : Bytes) : (new stream).Inv socks stream [] := by
  refine ⟨⟨?_, ?_, LruCache.sticky_nil _, rfl, ?_, ?_, ?_⟩, ⟨?_, ?_, ?_⟩, ?_⟩
  · exact List.nil_prefix
  · intro sending member
    cases member
  · intro _
    exact ⟨rfl, rfl⟩
  · intro tx rx ended
    cases ended
  · intro ended
    cases ended
  · exact List.nil_prefix
  · exact ⟨[], List.nil_prefix, Nat.zero_le _, List.nil_prefix, rfl⟩
  · intro _
    exact ⟨rfl, rfl⟩
  · intro _
    refine ⟨rfl, LruCache.remembers_nil _, ?_, ?_⟩
    · intro hp sa member
      cases member
    · intro rest size replying
      cases replying

/-! ## The resolver -/

/-- The address that is used is the one of the cache, if it has one, and the first of a new answer
otherwise; it is kept either way. -/
theorem resolve_ok {hp : Bytes × UInt16} {lookup : Except IoError (List SocketAddr)} {sa : SocketAddr}
    (room : 0 < s.resolvedAddrs.capacity) (h : s.resolve hp lookup = (.ok sa, after)) :
    after = { s with resolvedAddrs := s.resolvedAddrs.put hp sa } ∧
      (∀ v, (hp, v) ∈ s.resolvedAddrs.entries → v = sa) ∧
      ((hp, sa) ∈ s.resolvedAddrs.entries ∨ ∃ more, lookup = .ok (sa :: more)) := by
  unfold resolve at h
  split at h
  · next v cache got =>
    obtain ⟨entry, rfl⟩ := LruCache.entry_of_get got
    cases h
    refine ⟨rfl, ?_, Or.inl entry⟩
    intro v other
    exact LruCache.value_unique other entry
  · next cache got =>
    obtain rfl := LruCache.absent_of_get got
    split at h
    · cases h
    · cases h
    · next first more =>
      dsimp only at h
      rw [LruCache.head_put _ _ _ room] at h
      cases h
      refine ⟨rfl, ?_, Or.inr ⟨more, rfl⟩⟩
      intro v entry
      rw [LruCache.get_of_entry entry] at got
      cases got

theorem resolve_error {hp : Bytes × UInt16} {lookup : Except IoError (List SocketAddr)} {ended : UdpEnd}
    (room : 0 < s.resolvedAddrs.capacity) (h : s.resolve hp lookup = (.error ended, after)) :
    (∃ err, ended = .failed err) ∧ after = { s with resolvedAddrs := after.resolvedAddrs } := by
  unfold resolve at h
  split at h
  · cases h
  · next cache got =>
    obtain rfl := LruCache.absent_of_get got
    split at h
    · cases h
      exact ⟨⟨_, rfl⟩, rfl⟩
    · cases h
      exact ⟨⟨_, rfl⟩, rfl⟩
    · dsimp only at h
      rw [LruCache.head_put _ _ _ room] at h
      cases h

/-! ## One turn -/

theorem replies_silent (silent : event.received = none) : replies (past ++ [event]) = replies past := by
  rw [replies_concat, silent]
  exact List.append_nil _

theorem Answers.silent_iff (silent : event.received = none) :
    after.Answers socks (past ++ [event]) ↔ after.Answers socks past := by
  constructor
  · rintro ⟨written, flushed, idle⟩
    rw [replies_silent silent] at written flushed idle
    exact ⟨written, flushed, idle⟩
  · rintro ⟨written, flushed, idle⟩
    rw [← replies_silent silent] at written flushed idle
    exact ⟨written, flushed, idle⟩

/-- The turns before an event are turns after it. -/
theorem turns_subset (sent : s.sent <+: after.sent) : s.turns past ⊆ after.turns (past ++ [event]) := by
  intro turn member
  obtain ⟨more, grown⟩ := sent
  obtain ⟨n, found⟩ := List.mem_iff_getElem?.mp member
  obtain ⟨sending, lookup⟩ := List.getElem?_zip_eq_some.mp found
  refine List.mem_iff_getElem?.mpr ⟨n, List.getElem?_zip_eq_some.mpr ⟨?_, ?_⟩⟩
  · rw [← grown, List.getElem?_append_left (List.getElem?_eq_some_iff.mp sending).1]
    exact sending
  · rw [lookups_concat, List.getElem?_append_left (List.getElem?_eq_some_iff.mp lookup).1]
    exact lookup

theorem Live.cached_later (live : s.Live socks past) (sent : s.sent <+: after.sent) {hp : Bytes × UInt16}
    {sa : SocketAddr} (entry : (hp, sa) ∈ s.resolvedAddrs.entries) :
    Resolved (after.turns (past ++ [event])) hp sa :=
  (live.cached hp sa entry).mono (turns_subset sent)

/-- A turn that ends the relay, after which nothing more was sent or taken. -/
theorem stop_inv {ended : UdpEnd} (inv : s.Inv socks stream past) (silent : event.received = none) (rest : Bytes)
    (cache : LruCache (Bytes × UInt16) SocketAddr)
    (closed : ∀ tx rx, ended = .closed tx rx →
      tx = s.tx ∧ rx = s.rx ∧ received socks stream = (s.sent.map Sending.message, .closed))
    (panicked : ended = .panicked → (received socks stream).2 = .panicked) :
    ({ s with stream := rest, resolvedAddrs := cache }.finish ended).Inv socks stream (past ++ [event]) := by
  have forwards := inv.forwards
  have answers := inv.answers
  refine ⟨⟨forwards.sent, ?_, forwards.sticky, forwards.tx, ?_, ?_, ?_⟩, ?_, ?_⟩
  · intro sending member
    exact (forwards.directed sending member).mono (turns_subset (List.prefix_refl _))
  · intro running
    cases running
  · intro tx rx same
    exact closed tx rx (Option.some.inj same)
  · intro same
    exact panicked (Option.some.inj same)
  · rw [Answers.silent_iff silent]
    exact ⟨answers.written, answers.flushed, answers.idle⟩
  · intro running
    cases running

theorem fail_inv (inv : s.Inv socks stream past) (silent : event.received = none) (rest : Bytes)
    (cache : LruCache (Bytes × UInt16) SocketAddr) (err : UdpError) :
    ({ s with stream := rest, resolvedAddrs := cache }.finish (.failed err)).Inv socks stream (past ++ [event]) := by
  apply stop_inv inv silent rest cache
  · intro tx rx ended
    cases ended
  · intro ended
    cases ended

/-! ### The half that sends -/

section

variable {lookup : Except IoError (List SocketAddr)} {send outcome : Except IoError Unit} {payload rest : Bytes}
  {destAddr : Addr} {target : SocketAddr} {cache : LruCache (Bytes × UInt16) SocketAddr}

/-- A datagram was received and sent to `target`, with the cache as it is then. -/
theorem sent_inv (inv : s.Inv socks stream past) (running : s.ended = none)
    (found : recvFrom socks.toSocks5 maxDatagramSize s.stream = (.datagram payload destAddr, rest))
    (now : after = { s with
      stream := rest
      resolvedAddrs := cache
      tx := s.tx + payload.length
      sent := s.sent ++ [⟨payload, destAddr, target⟩] })
    (directed : Sending.Directed (after.turns (past ++ [.forward lookup send])) ⟨payload, destAddr, target⟩)
    (capacity : cache.capacity = maxCachedDomainAddrsPerSocket)
    (sticky : LruCache.Sticky maxCachedDomainAddrsPerSocket after.uses) (remembers : cache.Remembers after.uses)
    (cached : ∀ hp sa, (hp, sa) ∈ cache.entries → Resolved (after.turns (past ++ [.forward lookup send])) hp sa) :
    after.Inv socks stream (past ++ [.forward lookup send]) := by
  subst now
  have forwards := inv.forwards
  obtain ⟨count, whole⟩ := forwards.running running
  have pending : received socks stream =
      ((s.sent ++ [Sending.mk payload destAddr target]).map Sending.message ++ (received socks rest).1,
        (received socks rest).2) := by
    rw [whole, received_eq s.stream, found]
    simp [Sending.message]
  refine ⟨⟨?_, ?_, sticky, ?_, ?_, ?_, ?_⟩, ?_, ?_⟩
  · rw [pending]
    exact List.prefix_append ..
  · intro sending member
    rcases List.mem_append.mp member with old | new
    · exact (forwards.directed sending old).mono (turns_subset (List.prefix_append ..))
    · obtain rfl := List.mem_singleton.mp new
      exact directed
  · show s.tx + payload.length = _
    rw [forwards.tx]
    simp
  · intro _
    refine ⟨?_, pending⟩
    rw [lookups_concat, List.length_append, List.length_append, count]
    rfl
  · intro tx rx ended
    rw [running] at ended
    cases ended
  · intro ended
    rw [running] at ended
    cases ended
  · rw [Answers.silent_iff rfl]
    exact ⟨inv.answers.written, inv.answers.flushed, inv.answers.idle⟩
  · intro _
    refine ⟨capacity, remembers, cached, ?_⟩
    rw [replies_silent rfl]
    exact (inv.live running).pending

theorem sendTo_inv (inv : s.Inv socks stream past)
    (sent : { s with
      stream := rest
      resolvedAddrs := cache
      tx := s.tx + payload.length
      sent := s.sent ++ [Sending.mk payload destAddr target] }.Inv socks stream
        (past ++ [UdpEvent.forward lookup send])) :
    ({ s with stream := rest, resolvedAddrs := cache }.sendTo payload destAddr target outcome).Inv socks stream
      (past ++ [UdpEvent.forward lookup send]) := by
  cases outcome with
  | ok done => exact sent
  | error err => exact fail_inv inv rfl rest cache _

/-- To an address the resolver is not asked for. -/
theorem direct_inv (inv : s.Inv socks stream past) (running : s.ended = none)
    (found : recvFrom socks.toSocks5 maxDatagramSize s.stream = (.datagram payload target.toAddr, rest)) :
    ({ s with stream := rest }.sendTo payload target.toAddr target outcome).Inv socks stream
      (past ++ [UdpEvent.forward lookup send]) := by
  have unnamed : (s.sent ++ [Sending.mk payload target.toAddr target]).filterMap Sending.use = s.uses := by
    rw [List.filterMap_append]
    cases target <;> exact List.append_nil _
  have live := inv.live running
  apply sendTo_inv inv
  refine sent_inv inv running found rfl (Or.inl rfl) live.capacity ?_ ?_ ?_
  · rw [uses, unnamed]
    exact inv.forwards.sticky
  · rw [uses, unnamed]
    exact live.remembers
  · intro hp sa entry
    exact live.cached_later (List.prefix_append ..) entry

/-- The address was in the cache, or is the resolver's answer in the turn of the datagram. -/
theorem resolved_now {sending : Sending} {hp : Bytes × UInt16} (inv : s.Inv socks stream past)
    (running : s.ended = none)
    (known : (hp, target) ∈ s.resolvedAddrs.entries ∨ ∃ more, lookup = .ok (target :: more))
    (use : sending.use = some (hp, target)) (sent : after.sent = s.sent ++ [sending]) :
    Resolved (after.turns (past ++ [.forward lookup send])) hp target := by
  rcases known with entry | ⟨more, rfl⟩
  · exact (inv.live running).cached_later (sent ▸ List.prefix_append ..) entry
  · refine ⟨sending, more, ?_, use⟩
    rw [turns, lookups_concat, sent, List.zip_append (inv.forwards.running running).1]
    exact List.mem_append_right _ List.mem_cons_self

theorem named_inv {host : Bytes} {port : UInt16} {short : host.length ≤ 255} {valid : utf8 host = true}
    (inv : s.Inv socks stream past) (running : s.ended = none)
    (found : recvFrom socks.toSocks5 maxDatagramSize s.stream =
      (.datagram payload (.domain host port short valid), rest))
    (h : { s with stream := rest }.resolve (host, port) lookup = (.ok target, after)) :
    (after.sendTo payload (.domain host port short valid) target outcome).Inv socks stream
      (past ++ [.forward lookup send]) := by
  have live := inv.live running
  have room : 0 < s.resolvedAddrs.capacity := by
    rw [live.capacity]
    decide
  obtain ⟨rfl, only, known⟩ := resolve_ok (s := { s with stream := rest }) room h
  have used : (s.sent ++ [Sending.mk payload (.domain host port short valid) target]).filterMap Sending.use =
      s.uses ++ [((host, port), target)] := by
    rw [List.filterMap_append]
    rfl
  apply sendTo_inv inv
  refine sent_inv inv running found rfl (Or.inr ⟨(host, port), rfl, resolved_now inv running known rfl rfl⟩)
    live.capacity ?_ ?_ ?_
  · rw [uses, used, ← live.capacity]
    have sticky := inv.forwards.sticky
    rw [← live.capacity] at sticky
    exact live.remembers.sticky sticky only
  · rw [uses, used]
    exact live.remembers.put only room
  · intro hp other entry
    by_cases same : (host, port) = hp
    · subst same
      have mine : ((host, port), target) ∈ (s.resolvedAddrs.put (host, port) target).entries :=
        List.mem_of_mem_head? (LruCache.head_put _ _ _ room)
      rw [LruCache.value_unique entry mine]
      exact resolved_now inv running known rfl rfl
    · exact live.cached_later (List.prefix_append ..) (LruCache.mem_of_mem_put same entry)

theorem forward_inv (inv : s.Inv socks stream past) (running : s.ended = none) :
    (s.forward socks lookup send).Inv socks stream (past ++ [.forward lookup send]) := by
  obtain ⟨-, whole⟩ := inv.forwards.running running
  rw [received_eq s.stream] at whole
  unfold UdpRelay.forward
  split
  · next rest found =>
    rw [found] at whole
    apply stop_inv inv rfl rest s.resolvedAddrs
    · intro tx rx ended
      cases ended
      exact ⟨rfl, rfl, by rw [whole, List.append_nil]⟩
    · intro ended
      cases ended
  · next err rest found => exact fail_inv inv rfl rest s.resolvedAddrs _
  · next rest found =>
    rw [found] at whole
    apply stop_inv inv rfl rest s.resolvedAddrs
    · intro tx rx ended
      cases ended
    · intro _
      rw [whole]
  · next payload destAddr rest found =>
    cases destAddr with
    | v4 ip port => exact @direct_inv _ _ _ _ _ _ _ _ _ (.v4 ip port) inv running found
    | v6 high low port => exact @direct_inv _ _ _ _ _ _ _ _ _ (.v6 high low port) inv running found
    | domain host port short valid =>
      dsimp only
      split
      · next sa after resolved => exact named_inv inv running found resolved
      · next ended after failed =>
        have room : 0 < s.resolvedAddrs.capacity := by
          rw [(inv.live running).capacity]
          decide
        obtain ⟨⟨err, rfl⟩, same⟩ := resolve_error (s := { s with stream := rest }) room failed
        rw [same]
        exact fail_inv inv rfl rest after.resolvedAddrs _

end

/-! ### The half that answers -/

/-- What it does is nothing to the half that sends. -/
theorem Forwards.aside (forwards : s.Forwards socks stream past) (running : s.ended = none)
    (silent : event.lookup = none) (rx : Nat) (reply : Option (Bytes × Nat)) (written : Bytes) :
    { s with rx := rx, reply := reply, written := written }.Forwards socks stream (past ++ [event]) := by
  have same : lookups (past ++ [event]) = lookups past := by
    rw [lookups_concat, silent]
    exact List.append_nil _
  refine ⟨forwards.sent, ?_, forwards.sticky, forwards.tx, ?_, ?_, ?_⟩
  · rw [turns, same]
    exact forwards.directed
  · intro _
    rw [same]
    exact forwards.running running
  · intro tx rx ended
    rw [running] at ended
    cases ended
  · intro ended
    rw [running] at ended
    cases ended

theorem receive_inv {datagram : Except IoError (Bytes × SocketAddr)} (inv : s.Inv socks stream past)
    (running : s.ended = none) (free : s.reply = none) :
    (s.receive socks datagram).Inv socks stream (past ++ [.receive datagram]) := by
  cases datagram with
  | error err => exact fail_inv inv rfl s.stream s.resolvedAddrs _
  | ok datagram =>
    obtain ⟨payload, origAddr⟩ := datagram
    have now : replies (past ++ [.receive (.ok (payload, origAddr))]) =
        replies past ++ [(payload.take maxDatagramSize, origAddr)] := replies_concat ..
    obtain ⟨written, rx⟩ := inv.answers.idle free
    have live := inv.live running
    refine ⟨inv.forwards.aside running rfl s.rx _ s.written, ⟨?_, ?_, ?_⟩, ?_⟩
    · rw [now, encoded_concat]
      exact written ▸ List.prefix_append ..
    · refine ⟨replies past, ?_, ?_, ?_, rx⟩
      · rw [now]
        exact List.prefix_append ..
      · rw [now, List.length_append]
        exact Nat.le_refl _
      · rw [← written]
        exact List.prefix_refl _
    · intro idle
      cases idle
    · intro _
      refine ⟨live.capacity, live.remembers, fun _ _ => live.cached_later (List.prefix_refl _), ?_⟩
      intro rest size replying
      cases replying
      refine ⟨_, _, now, rfl, ?_, ?_, rx⟩
      · rw [now, encoded_concat, ← written]
        rfl
      · rw [← written]
        exact List.prefix_refl _

theorem answer_inv {pending : Bytes} {size : Nat} (inv : s.Inv socks stream past) (running : s.ended = none)
    (replying : s.reply = some (pending, size)) (h : s.answer pending size event = some after) :
    after.Inv socks stream (past ++ [event]) := by
  have live := inv.live running
  obtain ⟨earlier, last, split, length, complete, before, rx⟩ := live.pending pending size replying
  cases event with
  | forward lookup send => cases h
  | receive datagram => cases h
  | writeFails err =>
    cases h
    exact fail_inv inv rfl s.stream s.resolvedAddrs _
  | write n =>
    obtain ⟨-, h⟩ := Option.ite_none_right_eq_some.mp h
    cases h
    have taken : (s.written ++ pending.take n) ++ pending.drop n = encoded socks (replies past) := by
      rw [List.append_assoc, List.take_append_drop, complete]
    have further : encoded socks earlier <+: s.written ++ pending.take n := before.trans (List.prefix_append ..)
    refine ⟨inv.forwards.aside running rfl _ _ _, (Answers.silent_iff rfl).mpr ⟨⟨_, taken⟩, ?_, ?_⟩, ?_⟩
    · rw [split]
      refine ⟨earlier, List.prefix_append .., ?_, further, rx⟩
      rw [List.length_append]
      exact Nat.le_refl _
    · intro idle
      cases idle
    · intro _
      refine ⟨live.capacity, live.remembers, fun _ _ => live.cached_later (List.prefix_refl _), ?_⟩
      intro rest size again
      cases again
      rw [replies_silent rfl]
      exact ⟨earlier, last, split, length, taken, further, rx⟩
  | flush =>
    obtain ⟨rfl, h⟩ := Option.ite_none_right_eq_some.mp h
    cases h
    rw [List.append_nil] at complete
    have counted : s.rx + size = payloads (replies past) := by
      rw [split, rx, length]
      simp [payloads]
    refine ⟨inv.forwards.aside running rfl _ _ _, (Answers.silent_iff rfl).mpr ⟨?_, ?_, ?_⟩, ?_⟩
    · rw [← complete]
    · refine ⟨_, List.prefix_refl _, Nat.le_succ _, ?_, counted⟩
      rw [← complete]
    · intro _
      exact ⟨complete, counted⟩
    · intro _
      refine ⟨live.capacity, live.remembers, fun _ _ => live.cached_later (List.prefix_refl _), ?_⟩
      intro rest size again
      cases again

theorem step_cases (h : s.step socks event = some after) : s.ended = none ∧
    ((∃ lookup send, event = .forward lookup send ∧ after = s.forward socks lookup send) ∨
     (∃ datagram, event = .receive datagram ∧ s.reply = none ∧ after = s.receive socks datagram) ∨
     ∃ pending size, s.reply = some (pending, size) ∧ s.answer pending size event = some after) := by
  unfold step at h
  cases running : s.ended with
  | some ended =>
    rw [running] at h
    cases h
  | none =>
    refine ⟨rfl, ?_⟩
    rw [running] at h
    cases replying : s.reply with
    | none =>
      rw [replying] at h
      cases event with
      | forward lookup send =>
        cases h
        exact Or.inl ⟨_, _, rfl, rfl⟩
      | receive datagram =>
        cases h
        exact Or.inr (Or.inl ⟨_, rfl, rfl, rfl⟩)
      | _ => cases h
    | some reply =>
      rw [replying] at h
      cases event with
      | forward lookup send =>
        cases h
        exact Or.inl ⟨_, _, rfl, rfl⟩
      | _ => exact Or.inr (Or.inr ⟨_, _, rfl, h⟩)

theorem step_inv (past : List UdpEvent) (s : UdpRelay) (event : UdpEvent) (next : UdpRelay)
    (inv : s.Inv socks stream past) (h : s.step socks event = some next) :
    next.Inv socks stream (past ++ [event]) := by
  obtain ⟨running, ⟨lookup, send, rfl, rfl⟩ | ⟨datagram, rfl, free, rfl⟩ | ⟨pending, size, replying, h⟩⟩ := step_cases h
  · exact forward_inv inv running
  · exact receive_inv inv running free
  · exact answer_inv inv running replying h

theorem run_inv {events : List UdpEvent} (h : run (step socks) (new stream) events = some s) :
    s.Inv socks stream events :=
  history_invariant step_inv (new_inv stream) h

end UdpRelay

def exampleName : Addr := .domain [0x61] 53 (by decide) rfl

/-- Twice to a name, with an address between, and a resolver that changes its mind. There is a reply, and the tunnel is
closed while a second one is written. -/
def nameTwice : List UdpEvent :=
  [.forward (.ok [.v4 1 53, .v4 2 53]) (.ok ()), .forward (.error earlyEof) (.ok ()),
   .receive (.ok ([9], .v4 1 53)), .write 11, .forward (.ok [.v4 2 53]) (.ok ()), .write 1, .flush,
   .receive (.ok ([8, 8], .v4 7 53)), .write 5, .forward (.ok []) (.ok ())]

section

variable (socks : Socks5Sync Addr)

/-- What the application asks for: an unreadable address ends the association. -/
def messages : List Bytes → List (Bytes × Addr)
  | [] => []
  | datagram :: later =>
    match datagram with
    | _ :: _ :: frag :: bytes =>
      if frag ≠ 0 then messages later
      else match socks.read bytes with
        | (.error _, _) => []
        | (.ok addr, payload) => (payload, addr) :: messages later
    | _ => messages later

def frames (outcomes : List FromClient) : Bytes :=
  (outcomes.filterMap fun
    | .forwarded frame => some frame
    | .dropped | .failed _ | .panicked => none).flatten

end

variable {socks : Socks5Sync Addr}

theorem frames_relayed (associated : Bool) (datagrams : List Bytes) :
    frames (relayed socks (.ok ()) associated datagrams) =
      ((messages socks datagrams).map (sendTo socks.toSocks5)).flatten := by
  induction datagrams generalizing associated with
  | nil => rfl
  | cons datagram later ih =>
    have ready : (if associated then .ok () else .ok () : Except IoError Unit) = .ok () := by cases associated <;> rfl
    rw [relayed, ready]
    rcases datagram with _ | ⟨r₀, _ | ⟨r₁, _ | ⟨frag, bytes⟩⟩⟩
    · exact ih true
    · exact ih true
    · exact ih true
    · rw [decapsulated, messages]
      by_cases fragment : frag = 0
      · simp only [fragment, ne_eq, not_true_eq_false, if_false]
        cases read : socks.read bytes with
        | mk result payload =>
          cases result with
          | error err => rfl
          | ok addr =>
            have rest := ih true
            simp only [frames, List.filterMap_cons, List.flatten_cons, List.map_cons] at rest ⊢
            rw [rest]
      · simp only [ne_eq, fragment, not_false_eq_true, if_true]
        exact ih true

theorem messages_small {datagrams : List Bytes} (sized : ∀ d ∈ datagrams, d.length ≤ maxDatagramSize) :
    ∀ message ∈ messages socks datagrams, message.1.length < maxDatagramSize := by
  induction datagrams with
  | nil =>
    intro message member
    cases member
  | cons datagram later ih =>
    obtain ⟨first, others⟩ := List.forall_mem_cons.mp sized
    rcases datagram with _ | ⟨r₀, _ | ⟨r₁, _ | ⟨frag, bytes⟩⟩⟩
    · exact ih others
    · exact ih others
    · exact ih others
    · rw [messages]
      by_cases fragment : frag = 0
      · simp only [fragment, ne_eq, not_true_eq_false, if_false]
        cases read : socks.read bytes with
        | mk result payload =>
          cases result with
          | error err =>
            intro message member
            cases member
          | ok addr =>
            intro message member
            rcases List.mem_cons.mp member with rfl | old
            · have layout := socks.read_ok _ _ _ read
              rw [layout] at first
              simp only [List.length_cons, List.length_append] at first
              show payload.length < maxDatagramSize
              omega
            · exact ih others message old
      · simp only [ne_eq, fragment, not_false_eq_true, if_true]
        exact ih others

/-- A datagram is read only where the whole of it stands. -/
theorem recvFrom_sound {bufLen : Nat} {stream payload rest : Bytes} {addr : Addr}
    (h : recvFrom socks.toSocks5 bufLen stream = (.datagram payload addr, rest)) :
    stream = sendTo socks.toSocks5 (payload, addr) ++ rest := by
  unfold recvFrom at h
  split at h
  · split at h <;> cases h
  · next target hi lo cr lf later read =>
    have layout := socks.read_ok _ _ _ read
    split at h
    · cases h
    · next marked =>
      split at h
      · split at h
        · next taken left took =>
          cases h
          obtain ⟨rfl, length⟩ := readExact_eq_some.mp took
          have mark : [cr, lf] = [0x0d, 0x0a] := by
            rw [← be16_ofBe16 cr lf, not_not.mp marked]
            rfl
          obtain ⟨rfl, rfl⟩ : cr = 0x0d ∧ lf = 0x0a := by simpa using mark
          have header : be16 (payload.length % 65536) = [hi, lo] := by
            rw [length, Nat.mod_eq_of_lt (ofBe16_lt hi lo), be16_ofBe16]
          rw [layout, sendTo, header]
          simp
        · cases h
      · cases h
  · cases h

/-- Of a part of the frames a part of the messages is read. -/
theorem received_part {sent : List (Bytes × Addr)} {part : Bytes}
    (small : ∀ message ∈ sent, message.1.length < maxDatagramSize)
    (within : part <+: (sent.map (sendTo socks.toSocks5)).flatten) : (received socks part).1 <+: sent := by
  induction part using received.induct socks generalizing sent with
  | case1 part left found =>
    rw [received_eq, found]
    exact List.nil_prefix
  | case2 part err left found =>
    rw [received_eq, found]
    exact List.nil_prefix
  | case3 part left found =>
    rw [received_eq, found]
    exact List.nil_prefix
  | case4 part payload addr rest found ih =>
    obtain ⟨tail, whole⟩ := within
    have layout := recvFrom_sound found
    have fits := (recvFrom_shorter found).2
    have own := @recvFrom_delimits _ socks.toSocks5 (payload, addr) maxDatagramSize fits
      (Nat.lt_trans fits (by decide)) (rest ++ tail)
    rw [layout, List.append_assoc] at whole
    rw [received_eq, found]
    cases sent with
    | nil =>
      have none := congrArg List.length whole
      simp [sendTo] at none
    | cons first later =>
      obtain ⟨smallFirst, smallLater⟩ := List.forall_mem_cons.mp small
      have next := @recvFrom_delimits _ socks.toSocks5 first maxDatagramSize smallFirst
        (Nat.lt_trans smallFirst (by decide)) (later.map (sendTo socks.toSocks5)).flatten
      rw [List.map_cons, List.flatten_cons] at whole
      rw [← whole, own] at next
      obtain ⟨same, left⟩ := Prod.mk.inj next
      obtain ⟨rfl, rfl⟩ : payload = first.1 ∧ addr = first.2 := by simpa [Received.whole] using same
      exact List.prefix_cons_inj _ |>.mpr (ih smallLater ⟨tail, left⟩)

theorem received_messages (closes : recvFrom socks.toSocks5 maxDatagramSize [] = (.closed, []))
    {sent : List (Bytes × Addr)} (small : ∀ message ∈ sent, message.1.length < maxDatagramSize) :
    received socks (sent.map (sendTo socks.toSocks5)).flatten = (sent, .closed) := by
  induction sent with
  | nil =>
    rw [List.map_nil, List.flatten_nil, received_eq, closes]
  | cons first later ih =>
    obtain ⟨smallFirst, smallLater⟩ := List.forall_mem_cons.mp small
    have next := @recvFrom_delimits _ socks.toSocks5 first maxDatagramSize smallFirst
      (Nat.lt_trans smallFirst (by decide)) (later.map (sendTo socks.toSocks5)).flatten
    rw [received_eq, List.map_cons, List.flatten_cons, next]
    show (first :: _, _) = _
    rw [ih smallLater]

theorem Fits.small {message : Bytes × Addr} (fits : Fits socks message) : message.1.length < maxDatagramSize := by
  unfold Fits at fits
  omega

/-- What is left of the frames the tunnel takes, and what the client makes of it. -/
theorem btoa_part (closes : recvFrom socks.toSocks5 maxDatagramSize [] = (.closed, [])) {down : Bytes}
    (size : down.length = maxDatagramSize) {sent : List (Bytes × Addr)} (fit : ∀ message ∈ sent, Fits socks message)
    {back : Bytes} (within : back <+: (sent.map (sendTo socks.toSocks5)).flatten) :
    (btoa socks down back).1 <+: sent.map (encapsulated socks) ∧
    (back = (sent.map (sendTo socks.toSocks5)).flatten →
      btoa socks down back = (sent.map (encapsulated socks), .closed)) := by
  have small : ∀ message ∈ sent, message.1.length < maxDatagramSize := by
    intro message member
    exact (fit message member).small
  have part := received_part small within
  have fits : ∀ message ∈ (received socks back).1, Fits socks message := by
    intro message member
    exact fit message (part.subset member)
  rw [(btoa_iff back size).mpr fits]
  refine ⟨part.map _, ?_⟩
  intro all
  rw [all, received_messages closes small]

end NoisyShuttle.Shuttle
