import NoisyShuttle.Lib.Run
import NoisyShuttle.Shuttle.Fallback
import NoisyShuttle.Tunnel.Establish

/-!
# Connections to the shuttle server

`handle_connection` up to the first request, for one connection after the other. A connection counts where
it takes the lock of the replay filter; where one that never takes it stands makes no difference, as is
proved here.
-/

namespace NoisyShuttle.Shuttle
open Tunnel

/-- All that a connection makes visible from outside. -/
structure Shown where
  toClient : Bytes
  toCamouflage : Bytes
  deriving DecidableEq

/-- One run of `handle_connection`: the clock, the peer, the key and the padding `accept` would answer
with, what the peer sends, how the camouflage server would answer `accept`, and how its writes would fail. The sockets
of a relay take what they are given. -/
structure Connection (Addr E : Type) where
  now : UInt64
  peer : Addr
  e : E
  padding : Bytes
  inbound : Bytes
  exchange : Except IoError Bytes
  faults : Faults

inductive ConnectionEnd where
  | tunnel (tunnel : Tunnelled)
  | fallback
  | relayed
  | failed (context : String) (err : IoError)

def ConnectionEnd.isFallback : ConnectionEnd → Bool
  | .fallback => true
  | .tunnel _ | .relayed | .failed .. => false

structure Served where
  ended : ConnectionEnd
  shown : Shown

/-- A new connection to the camouflage server, which answers what it is sent, or is not there. -/
def fallback (camouflage : Bytes → Except IoError Bytes) (buf io : Bytes) : Shown :=
  match camouflage (fallbackRelay buf io) with
  | .ok answer => ⟨answer, fallbackRelay buf io⟩
  | .error _ => ⟨[], []⟩

variable {Addr E I R : Type} (deps : Deps) (snow : Snow E I R) (camouflage : Bytes → Except IoError Bytes)

def handleConnection (srv : Server Addr) (c : Connection Addr E) : Served × Server Addr :=
  match acceptTunnel deps snow srv c.now c.peer c.e c.padding c.inbound c.exchange c.faults with
  | (⟨.ok tunnel, toClient, toCamouflage⟩, srv) => (⟨.tunnel tunnel, ⟨toClient, toCamouflage⟩⟩, srv)
  | (⟨.error err, toClient, toCamouflage⟩, srv) =>
    match err with
    | .ioError err => (⟨.failed "failed to accept connection" err, ⟨toClient, toCamouflage⟩⟩, srv)
    | .serverHelloInvalid buf inbound outbound =>
      (⟨.relayed, ⟨toClient ++ fallbackReply buf outbound, toCamouflage ++ inbound⟩⟩, srv)
    | .replayDetected buf io _ _ => (⟨.fallback, fallback camouflage buf io⟩, srv)
    | .unauthenticated buf io => (⟨.fallback, fallback camouflage buf io⟩, srv)
    | .clientHelloInvalid buf io => (⟨.fallback, fallback camouflage buf io⟩, srv)

/-- A relay that knows no key and looks at nothing: what comes is passed on. -/
def plainRelay (inbound : Bytes) : Shown :=
  match camouflage inbound with
  | .ok answer => ⟨answer, inbound⟩
  | .error _ => ⟨[], []⟩

/-- What is passed on for a peer that is turned away. Five bytes that are no header of a record are lost, and nothing is
passed on before the record is complete. -/
def passedOn (inbound : Bytes) : Option Bytes :=
  match inbound with
  | typ :: vhi :: vlo :: lhi :: llo :: rest =>
    if headerAccepted deps.rustls [typ, vhi, vlo, lhi, llo] then
      if ofBe16 lhi llo ≤ rest.length then some inbound else none
    else some rest
  | _ => none

/-- The plain relay of these bytes, if there are any. -/
def turnedAway (inbound : Bytes) : Shown := ((passedOn deps inbound).map (plainRelay camouflage)).getD ⟨[], []⟩

/-- The peer signs with the key of the server. -/
def genuine (srv : Server Addr) (c : Connection Addr E) : Bool := (authenticate deps srv c.now c.inbound).isOk

variable {deps snow camouflage} {srv after : Server Addr} {c : Connection Addr E}

theorem readTlsMessage_passedOn {inbound : Bytes} :
    passedOn deps inbound =
      (readTlsMessage deps.rustls deps.uninit inbound RawVec.empty).toOption.map fun read =>
        read.2.1.contents ++ read.2.2 := by
  unfold passedOn
  split
  · next typ vhi vlo lhi llo rest =>
    split
    · next accepted =>
      split
      · next enough =>
        obtain ⟨after, read, contents⟩ := readTlsMessage_whole deps.rustls deps.uninit (rest.drop (ofBe16 lhi llo))
          RawVec.empty accepted (List.length_take_of_le enough).symm
        rw [List.take_append_drop] at read
        rw [read]
        show _ = some (after.contents ++ _)
        rw [contents]
        simp
      · next short =>
        rw [readTlsMessage_cut deps.rustls deps.uninit RawVec.empty accepted (Nat.not_le.mp short)]
        rfl
    · next rejected =>
      have refused : headerAccepted deps.rustls (typ :: vhi :: vlo :: lhi :: llo :: rest) = false :=
        Bool.eq_false_iff.mpr rejected
      obtain ⟨err, read⟩ := readTlsMessage_unaccepted deps.rustls deps.uninit RawVec.empty refused
      rw [read]
      rfl
  · next short =>
    have headless : ∀ typ vhi vlo lhi llo rest, inbound ≠ typ :: vhi :: vlo :: lhi :: llo :: rest := by
      rintro typ vhi vlo lhi llo rest rfl
      exact short typ vhi vlo lhi llo rest rfl
    rw [readTlsMessage_headless deps.rustls deps.uninit RawVec.empty headless]
    rfl

theorem readClientHello_turnedAway {inbound rest : Bytes} {hello : Option ClientHelloPayload} {buf : RawVec UInt8}
    (h : readClientHello deps inbound = .ok (hello, buf, rest)) :
    turnedAway deps camouflage inbound = fallback camouflage buf.contents rest := by
  unfold readClientHello at h
  unfold turnedAway
  rw [readTlsMessage_passedOn]
  cases read : readTlsMessage deps.rustls deps.uninit inbound RawVec.empty with
  | error err =>
    rw [read] at h
    cases h
  | ok result =>
    rw [read] at h
    cases h
    rfl

theorem readClientHello_failed {inbound : Bytes} {err : IoError} (h : readClientHello deps inbound = .error err) :
    turnedAway deps camouflage inbound = ⟨[], []⟩ := by
  unfold readClientHello at h
  unfold turnedAway
  rw [readTlsMessage_passedOn]
  cases read : readTlsMessage deps.rustls deps.uninit inbound RawVec.empty with
  | error err => rfl
  | ok result =>
    rw [read] at h
    cases h

/-- It is the plain relay exactly if the peer begins with a whole record whose header is accepted. -/
theorem turnedAway_plain_iff {inbound : Bytes} (some : inbound ≠ []) {answer : Bytes}
    (up : camouflage inbound = .ok answer) :
    turnedAway deps camouflage inbound = plainRelay camouflage inbound ↔ passedOn deps inbound = .some inbound := by
  constructor
  · intro same
    have plain : plainRelay camouflage inbound = ⟨answer, inbound⟩ := by
      rw [plainRelay, up]
    rw [plain] at same
    unfold turnedAway at same
    cases passed : passedOn deps inbound with
    | none =>
      rw [passed] at same
      cases same
      exact (some rfl).elim
    | some bytes =>
      rw [passed] at same
      change plainRelay camouflage bytes = _ at same
      unfold plainRelay at same
      split at same
      · cases same
        rfl
      · cases same
        exact (some rfl).elim
  · intro whole
    rw [turnedAway, whole]
    rfl

/-- The key and the signatures of the server never change. -/
theorem acceptTunnel_keys {accepting : Accepting Addr}
    (h : acceptTunnel deps snow srv c.now c.peer c.e c.padding c.inbound c.exchange c.faults = (accepting, after)) :
    after.key = srv.key ∧ after.totp = srv.totp := by
  unfold acceptTunnel at h
  split at h
  · cases h
    exact ⟨rfl, rfl⟩
  · split at h
    · cases h
      exact ⟨rfl, rfl⟩
    · split at h <;>
      · obtain ⟨-, rfl⟩ := Prod.mk.inj h
        exact ⟨rfl, rfl⟩

theorem handleConnection_server :
    (handleConnection deps snow camouflage srv c).2 =
      (acceptTunnel deps snow srv c.now c.peer c.e c.padding c.inbound c.exchange c.faults).2 := by
  unfold handleConnection
  split
  · next accepted => rw [accepted]
  · next err toClient toCamouflage after refused =>
    rw [refused]
    cases err <;> rfl

theorem concludePing_not_rejected {ex : Exchange} {responder : R} {e : E} {padding toCamouflage : Bytes}
    {faults : Faults} {err : AcceptError Addr}
    (h : (concludePing snow ex responder e padding faults toCamouflage : Accepting Addr).result = .error err) :
    rejectedClient err = none := by
  unfold concludePing at h
  split at h
  · cases h
    rfl
  · split at h
    · cases h
      rfl
    · dsimp only at h
      split at h <;> cases h
      rfl

theorem answerPing_not_rejected {ping : Ping} {responder : R} {e : E} {padding : Bytes}
    {exchange : Except IoError Bytes} {faults : Faults} {err : AcceptError Addr}
    (h : (answerPing deps snow ping responder e padding exchange faults : Accepting Addr).result = .error err) :
    rejectedClient err = none := by
  unfold answerPing at h
  split at h
  · cases h
    rfl
  · split at h
    · cases h
      rfl
    · split at h
      · next failed =>
        cases h
        exact exchangeHellos_not_rejected deps failed
      · exact concludePing_not_rejected h

/-- Every client that `accept` turns away was read by one `readClientHello`, and shown nothing. -/
theorem acceptTunnel_refused {accepting : Accepting Addr} {err : AcceptError Addr} {buf io : Bytes}
    (h : acceptTunnel deps snow srv c.now c.peer c.e c.padding c.inbound c.exchange c.faults = (accepting, after))
    (failed : accepting.result = .error err) (rejected : rejectedClient err = some (buf, io)) :
    turnedAway deps camouflage c.inbound = fallback camouflage buf io := by
  unfold acceptTunnel at h
  split at h
  · next refused =>
    cases h
    cases failed
    obtain ⟨hello, read, first, rfl⟩ := authenticate_rejected deps refused rejected
    exact readClientHello_turnedAway first
  · next ping passed =>
    have plain : turnedAway deps camouflage c.inbound = fallback camouflage ping.buf.contents ping.io :=
      readClientHello_turnedAway (authenticate_ok deps passed).1
    split at h
    · cases h
      cases failed
      cases rejected
      exact plain
    · split at h
      · cases h
        cases failed
        cases rejected
        exact plain
      · obtain ⟨rfl, -⟩ := Prod.mk.inj h
        rw [answerPing_not_rejected failed] at rejected
        cases rejected

theorem handleConnection_fallback (h : (handleConnection deps snow camouflage srv c).1.ended = .fallback) :
    (handleConnection deps snow camouflage srv c).1.shown = turnedAway deps camouflage c.inbound := by
  unfold handleConnection at h ⊢
  split at h
  · cases h
  · next err toClient toCamouflage after refused =>
    cases err with
    | ioError err => cases h
    | serverHelloInvalid buf inbound outbound => cases h
    | unauthenticated buf io => exact (acceptTunnel_refused refused rfl rfl).symm
    | replayDetected buf io nonce first => exact (acceptTunnel_refused refused rfl rfl).symm
    | clientHelloInvalid buf io => exact (acceptTunnel_refused refused rfl rfl).symm

/-- A peer without the key is turned away, and leaves no trace. -/
theorem handleConnection_probe (probe : genuine deps srv c = false) :
    (∀ tunnel, (handleConnection deps snow camouflage srv c).1.ended ≠ .tunnel tunnel) ∧
    (handleConnection deps snow camouflage srv c).1.shown = turnedAway deps camouflage c.inbound ∧
    (handleConnection deps snow camouflage srv c).2 = srv := by
  unfold genuine at probe
  cases verdict : authenticate deps srv c.now c.inbound with
  | ok ping =>
    rw [verdict] at probe
    cases probe
  | error err =>
    have refused : acceptTunnel deps snow srv c.now c.peer c.e c.padding c.inbound c.exchange c.faults =
        (⟨.error err, [], []⟩, srv) := by
      unfold acceptTunnel
      rw [verdict]
    unfold handleConnection
    rw [refused]
    cases err with
    | ioError err =>
      refine ⟨by simp, ?_, rfl⟩
      unfold authenticate at verdict
      split at verdict
      · next unread => exact (readClientHello_failed unread).symm
      · cases verdict
      · split at verdict <;> cases verdict
    | serverHelloInvalid buf inbound outbound => exact (authenticate_error deps verdict).elim
    | unauthenticated buf io => exact ⟨by simp, (acceptTunnel_refused refused rfl rfl).symm, rfl⟩
    | replayDetected buf io nonce first => exact ⟨by simp, (acceptTunnel_refused refused rfl rfl).symm, rfl⟩
    | clientHelloInvalid buf io => exact ⟨by simp, (acceptTunnel_refused refused rfl rfl).symm, rfl⟩

theorem genuine_congr {other : Server Addr} (same : other.key = srv.key ∧ other.totp = srv.totp) :
    genuine deps other c = genuine deps srv c := by
  unfold genuine authenticate
  rw [same.1, same.2]

theorem handleConnection_keys {other : Server Addr} (same : srv.key = other.key ∧ srv.totp = other.totp) :
    (handleConnection deps snow camouflage srv c).2.key = other.key ∧
      (handleConnection deps snow camouflage srv c).2.totp = other.totp := by
  rw [handleConnection_server]
  obtain ⟨key, totp⟩ := acceptTunnel_keys (Prod.eta (acceptTunnel deps snow srv c.now c.peer c.e c.padding c.inbound
    c.exchange c.faults)).symm
  exact ⟨key.trans same.1, totp.trans same.2⟩

/-- Whoever is turned away, a peer without the key or a replay, gets no tunnel and meets a relay without any key. It
loses five bytes if they are no header of a record, and waits for the record to be complete; there is no other
difference. The peers without the key can be taken out of a run without a change for the others. -/
theorem probes_invisible (deps : Deps) (snow : Snow E I R) (camouflage : Bytes → Except IoError Bytes)
    (srv : Server Addr) (connections : List (Connection Addr E)) :
    (∀ entry ∈ (serve (handleConnection deps snow camouflage) srv connections).1,
      genuine deps srv entry.1 = false ∨ entry.2.ended = .fallback →
        (∀ tunnel, entry.2.ended ≠ .tunnel tunnel) ∧
        entry.2.shown = turnedAway deps camouflage entry.1.inbound ∧
        ∀ answer, entry.1.inbound ≠ [] → camouflage entry.1.inbound = .ok answer →
          (entry.2.shown = plainRelay camouflage entry.1.inbound ↔
            passedOn deps entry.1.inbound = some entry.1.inbound)) ∧
    serve (handleConnection deps snow camouflage) srv (connections.filter (genuine deps srv)) =
      ((serve (handleConnection deps snow camouflage) srv connections).1.filter (fun entry => genuine deps srv entry.1),
        (serve (handleConnection deps snow camouflage) srv connections).2) := by
  have preserve : ∀ (s : Server Addr) (c : Connection Addr E), s.key = srv.key ∧ s.totp = srv.totp →
      (handleConnection deps snow camouflage s c).2.key = srv.key ∧
        (handleConnection deps snow camouflage s c).2.totp = srv.totp := fun _ _ => handleConnection_keys
  constructor
  · refine @serve_log _ _ _ (handleConnection deps snow camouflage) (fun s => s.key = srv.key ∧ s.totp = srv.totp)
      (fun c served => genuine deps srv c = false ∨ served.ended = .fallback →
        (∀ tunnel, served.ended ≠ .tunnel tunnel) ∧ served.shown = turnedAway deps camouflage c.inbound ∧
        ∀ answer, c.inbound ≠ [] → camouflage c.inbound = .ok answer →
          (served.shown = plainRelay camouflage c.inbound ↔ passedOn deps c.inbound = some c.inbound))
      preserve ?_ srv ⟨rfl, rfl⟩ connections
    intro s c same away
    have met : (∀ tunnel, (handleConnection deps snow camouflage s c).1.ended ≠ .tunnel tunnel) ∧
        (handleConnection deps snow camouflage s c).1.shown = turnedAway deps camouflage c.inbound := by
      rcases away with probe | refused
      · rw [← genuine_congr same] at probe
        obtain ⟨closed, shown, -⟩ := @handleConnection_probe _ _ _ _ _ snow camouflage _ _ probe
        exact ⟨closed, shown⟩
      · exact ⟨by simp [refused], handleConnection_fallback refused⟩
    refine ⟨met.1, met.2, ?_⟩
    intro answer some up
    rw [met.2]
    exact turnedAway_plain_iff some up
  · refine serve_purge preserve ?_ ⟨rfl, rfl⟩ connections
    intro s c same probe
    rw [← genuine_congr same] at probe
    exact (handleConnection_probe probe).2.2

theorem ConnectionEnd.isFallback_iff {ended : ConnectionEnd} : ended.isFallback = true ↔ ended = .fallback := by
  cases ended <;> simp [isFallback]

/-- A line of HTTP, then a client, then the client's bytes once more. -/
def probing : List (Connection Unit Unit) :=
  [⟨740, (), (), [], [0x47, 0x45, 0x54, 0x20, 0x2f, 0x0d, 0x0a], .ok [], .none⟩,
    ⟨750, (), (), [1, 2], signedHello ++ [0x17], .ok [0x16, 0x03, 0x03, 0x00, 0x01, 0x03], .none⟩,
    ⟨760, (), (), [], signedHello ++ [0x17], .ok [], .none⟩]

/-- The line of HTTP loses its first five bytes, and the replay meets a plain relay. -/
theorem probes_invisible_replayed :
    probing.map (genuine greetingDeps (Server.new greetingDeps Unit [0x6b] 2)) = [false, true, true] ∧
    ∃ first tunnelled replayed,
      (serve (handleConnection greetingDeps plainSnow .ok) (Server.new greetingDeps Unit [0x6b] 2) probing).1 =
        [first, tunnelled, replayed] ∧
      first.2.shown = ⟨[0x0d, 0x0a], [0x0d, 0x0a]⟩ ∧
      tunnelled.2.shown ≠ plainRelay .ok (signedHello ++ [0x17]) ∧
      replayed.2.shown = plainRelay .ok (signedHello ++ [0x17]) := by
  have seen := (probes_invisible greetingDeps plainSnow .ok (Server.new greetingDeps Unit [0x6b] 2) probing).1
  refine ⟨by decide +kernel, _, _, _, rfl, ?_, by decide +kernel, ?_⟩
  · exact (seen _ List.mem_cons_self (Or.inl (by decide +kernel))).2.1
  · refine ((seen _ (List.mem_cons_of_mem _ (List.mem_cons_of_mem _ (List.mem_singleton.mpr rfl)))
      (Or.inr ?_)).2.2 _ (by simp) rfl).mpr (by decide +kernel)
    exact ConnectionEnd.isFallback_iff.mp (by decide +kernel)

end NoisyShuttle.Shuttle
