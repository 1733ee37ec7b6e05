import NoisyShuttle.Lib.Buffer
import NoisyShuttle.Shuttle.Datagram

/-!
# UDP for SOCKS5 clients

The two halves of `relay_udp_with`: datagrams of the application, with the header of SOCKS5 in front, go
into the tunnel, and what comes out of the tunnel goes back with such a header. Each half has one buffer
of `MAX_DATAGRAM_SIZE` bytes, uninitialised at first.
-/

namespace NoisyShuttle.Shuttle
open Tunnel (IoError earlyEof)

/-- The rest of the codec: `Address::serialized_len`, and that nothing else is read as an address than
what `Address::write_to` writes. -/
structure Socks5Sync (α : Type) extends Socks5 α where
  serializedLen : α → Nat
  serializedLen_eq : ∀ addr, serializedLen addr = (write addr).length
  read_ok : ∀ bytes addr rest, read bytes = (.ok addr, rest) → bytes = write addr ++ rest

inductive FromClient where
  | dropped
  | forwarded (frame : Bytes)
  | failed (err : IoError)
  | panicked
  deriving DecidableEq

/-- Why a half of the relay came to its end. -/
inductive Ended where
  | closed
  | failed (err : IoError)
  | panicked
  deriving DecidableEq

section

variable {α : Type} (socks : Socks5Sync α)

/-! ## From the application -/

/-- What is done with the `n` bytes received into `buf`. -/
def fromClient (buf : Bytes) (n : Nat) : FromClient :=
  match buf[2]? with
  | none => .panicked
  | some frag =>
    if frag ≠ 0 then .dropped
    else match slice buf 3 n with
      | none => .panicked
      | some bytes =>
        match socks.read bytes with
        | (.error err, _) => .failed err
        | (.ok destAddr, _) =>
          match slice buf (3 + socks.serializedLen destAddr) n with
          | none => .panicked
          | some payload => .forwarded (sendTo socks.toSocks5 (payload, destAddr))

/-- One turn of the loop; `association` is the outcome of associating the socket with the sender. -/
def clientTurn (association : Except IoError Unit) (buf datagram : Bytes) : FromClient :=
  match association with
  | .error err => .failed err
  | .ok () => fromClient socks (refill buf (datagram.take buf.length)) (min datagram.length buf.length)

/-- The loop over the datagrams that arrive. A socket is associated at the first of them. -/
def atob (associate : Except IoError Unit) (associated : Bool) (buf : Bytes) : List Bytes → List FromClient
  | [] => []
  | datagram :: later =>
    match clientTurn socks (if associated then .ok () else associate) buf datagram with
    | .failed err => [.failed err]
    | .panicked => [.panicked]
    | outcome => outcome :: atob associate true (refill buf (datagram.take buf.length)) later

/-! ## To the application -/

/-- The header put in front of `n` bytes at the start of the buffer: the buffer, and what is sent. -/
def encapsulate (buf : Bytes) (n : Nat) (origAddr : α) : Option (Bytes × Bytes) := do
  let addrlen := socks.serializedLen origAddr
  let buf ← copyWithin buf n (2 + 1 + addrlen)
  let buf ← splice buf 0 [0x00, 0x00, 0x00]
  let buf ← if (socks.write origAddr).length ≤ addrlen then splice buf 3 (socks.write origAddr) else none
  let sent ← slice buf 0 (3 + n + addrlen)
  return (buf, sent)

theorem recvFrom_shorter {socks : Socks5Sync α} {bufLen : Nat} {stream payload rest : Bytes} {addr : α}
    (h : recvFrom socks.toSocks5 bufLen stream = (.datagram payload addr, rest)) :
    rest.length < stream.length ∧ payload.length < bufLen := by
  unfold recvFrom at h
  split at h
  · split at h <;> cases h
  · next addr hi lo cr lf later read =>
    have layout := socks.read_ok _ _ _ read
    split at h
    · cases h
    · split at h
      · next fits =>
        split at h
        · next taken left took =>
          cases h
          obtain ⟨rfl, length⟩ := readExact_eq_some.mp took
          rw [layout]
          simp only [List.length_append, List.length_cons]
          omega
        · cases h
      · cases h
  · cases h

/-- The loop over the stream of the tunnel: the datagrams sent to the application. -/
def btoa (buf stream : Bytes) : List Bytes × Ended :=
  match _received : recvFrom socks.toSocks5 buf.length stream with
  | (.closed, _) => ([], .closed)
  | (.failed err, _) => ([], .failed err)
  | (.panicked, _) => ([], .panicked)
  | (.datagram payload origAddr, rest) =>
    match encapsulate socks (refill buf payload) payload.length origAddr with
    | none => ([], .panicked)
    | some (buf, sent) =>
      let later := btoa buf rest
      (sent :: later.1, later.2)
termination_by stream.length
decreasing_by exact (recvFrom_shorter _received).1

/-! ## What is meant -/

/-- The datagram of a SOCKS5 client with `payload` for `addr`. -/
def Encapsulates (datagram payload : Bytes) (addr : α) : Prop :=
  ∃ r₀ r₁, datagram = r₀ :: r₁ :: 0x00 :: (socks.write addr ++ payload)

/-- What becomes of a datagram that is looked at alone. -/
def decapsulated : Bytes → FromClient
  | _ :: _ :: frag :: bytes =>
    if frag ≠ 0 then .dropped
    else match socks.read bytes with
      | (.error err, _) => .failed err
      | (.ok addr, payload) => .forwarded (sendTo socks.toSocks5 (payload, addr))
  | _ => .dropped

def relayed (associate : Except IoError Unit) (associated : Bool) : List Bytes → List FromClient
  | [] => []
  | datagram :: later =>
    match (if associated then .ok () else associate), decapsulated socks datagram with
    | .error err, _ => [.failed err]
    | .ok (), .failed err => [.failed err]
    | .ok (), outcome => outcome :: relayed associate true later

/-- What `recv_from` returns one call after the other. -/
def received (stream : Bytes) : List (Bytes × α) × Ended :=
  match _received : recvFrom socks.toSocks5 maxDatagramSize stream with
  | (.closed, _) => ([], .closed)
  | (.failed err, _) => ([], .failed err)
  | (.panicked, _) => ([], .panicked)
  | (.datagram payload origAddr, rest) =>
    let later := received rest
    ((payload, origAddr) :: later.1, later.2)
termination_by stream.length
decreasing_by exact (recvFrom_shorter _received).1

def encapsulated (message : Bytes × α) : Bytes := [0x00, 0x00, 0x00] ++ (socks.write message.2 ++ message.1)

/-- The header and the payload are not longer than the buffer. -/
def Fits (message : Bytes × α) : Prop := 3 + (socks.write message.2).length + message.1.length ≤ maxDatagramSize

end

/-! ## Datagrams of the application -/

variable {α : Type} {socks : Socks5Sync α} {buf datagram : Bytes}

theorem clientTurn_eq (fits : datagram.length ≤ buf.length) :
    clientTurn socks (.ok ()) buf datagram = fromClient socks (refill buf datagram) datagram.length := by
  rw [clientTurn, List.take_of_length_le fits, Nat.min_eq_left fits]

theorem clientTurn_long (fits : datagram.length ≤ buf.length) (long : 3 ≤ datagram.length) :
    clientTurn socks (.ok ()) buf datagram = decapsulated socks datagram := by
  match datagram, long with
  | r₀ :: r₁ :: frag :: bytes, _ =>
    have whole : slice (refill buf (r₀ :: r₁ :: frag :: bytes)) 3 (r₀ :: r₁ :: frag :: bytes).length = some bytes :=
      slice_refill fits (Nat.le_add_left 3 _)
    have third : (refill buf (r₀ :: r₁ :: frag :: bytes))[2]? = some frag := rfl
    rw [clientTurn_eq fits, fromClient, decapsulated, third, whole]
    dsimp only
    by_cases fragment : frag = 0
    · rw [if_neg (not_not.mpr fragment), if_neg (not_not.mpr fragment)]
      cases read : socks.read bytes with
      | mk result rest =>
        cases result with
        | error err => rfl
        | ok addr =>
          have layout := socks.read_ok _ _ _ read
          have payload : slice (refill buf (r₀ :: r₁ :: frag :: bytes)) (3 + socks.serializedLen addr)
              (r₀ :: r₁ :: frag :: bytes).length = some rest := by
            rw [slice_refill fits, ← List.drop_drop, socks.serializedLen_eq, layout]
            · exact congrArg some List.drop_left
            · rw [socks.serializedLen_eq, layout]
              simp only [List.length_cons, List.length_append]
              omega
          dsimp only
          rw [payload]
    · rw [if_pos fragment, if_pos fragment]

/-- In a buffer of zeros there is no fragment, and no room for the three bytes either. -/
theorem clientTurn_short (short : datagram.length < 3) :
    clientTurn socks (.ok ()) (List.replicate maxDatagramSize 0) datagram = .panicked := by
  have size : (List.replicate maxDatagramSize (0 : UInt8)).length = maxDatagramSize := List.length_replicate
  have fits : datagram.length ≤ (List.replicate maxDatagramSize (0 : UInt8)).length := by
    rw [size]
    unfold maxDatagramSize
    omega
  have third : (refill (List.replicate maxDatagramSize 0) datagram)[2]? = some 0 := by
    unfold refill
    rw [List.getElem?_append_right (by omega), List.drop_replicate, List.getElem?_replicate, if_pos]
    unfold maxDatagramSize
    omega
  rw [clientTurn_eq fits, fromClient, third, slice_reversed short]
  rfl

/-- Everything a datagram can come to. -/
theorem decapsulated_cases (datagram : Bytes) :
    (∃ payload addr, Encapsulates socks datagram payload addr ∧
        decapsulated socks datagram = .forwarded (sendTo socks.toSocks5 (payload, addr))) ∨
      decapsulated socks datagram = .dropped ∨ ∃ err, decapsulated socks datagram = .failed err := by
  match datagram with
  | [] | [_] | [_, _] => exact .inr (.inl rfl)
  | r₀ :: r₁ :: frag :: bytes =>
    rw [decapsulated]
    by_cases fragment : frag = 0
    · subst fragment
      rw [if_neg (not_not.mpr rfl)]
      cases read : socks.read bytes with
      | mk result payload =>
        cases result with
        | error err => exact .inr (.inr ⟨err, rfl⟩)
        | ok addr => exact .inl ⟨payload, addr, ⟨r₀, r₁, by rw [socks.read_ok _ _ _ read]⟩, rfl⟩
    · rw [if_pos fragment]
      exact .inr (.inl rfl)

theorem decapsulated_forwarded (datagram frame : Bytes) :
    decapsulated socks datagram = .forwarded frame ↔
      ∃ payload addr, Encapsulates socks datagram payload addr ∧ frame = sendTo socks.toSocks5 (payload, addr) := by
  constructor
  · intro forwarded
    rcases @decapsulated_cases α socks datagram with ⟨payload, addr, layout, same⟩ | same | ⟨err, same⟩
    · exact ⟨payload, addr, layout, FromClient.forwarded.inj (forwarded.symm.trans same)⟩
    · cases forwarded.symm.trans same
    · cases forwarded.symm.trans same
  · rintro ⟨payload, addr, ⟨r₀, r₁, rfl⟩, rfl⟩
    rw [decapsulated, if_neg (not_not.mpr rfl), socks.read_write]

theorem decapsulated_ne_panicked (datagram : Bytes) : decapsulated socks datagram ≠ .panicked := by
  intro panicked
  rcases @decapsulated_cases α socks datagram with ⟨payload, addr, layout, same⟩ | same | ⟨err, same⟩
  · cases panicked.symm.trans same
  · cases panicked.symm.trans same
  · cases panicked.symm.trans same

theorem atob_long {datagrams : List Bytes} (associate : Except IoError Unit) (associated : Bool)
    (long : ∀ datagram ∈ datagrams, 3 ≤ datagram.length ∧ datagram.length ≤ buf.length) :
    atob socks associate associated buf datagrams = relayed socks associate associated datagrams := by
  induction datagrams generalizing associated buf with
  | nil => rfl
  | cons datagram later ih =>
    obtain ⟨⟨first, fits⟩, others⟩ := List.forall_mem_cons.mp long
    have others : ∀ datagram' ∈ later, 3 ≤ datagram'.length ∧
        datagram'.length ≤ (refill buf (datagram.take buf.length)).length := by
      rw [length_refill (List.length_take_le ..)]
      exact others
    rw [atob, relayed]
    cases if associated then .ok () else associate with
    | error err => rfl
    | ok =>
      rw [clientTurn_long fits first]
      cases outcome : decapsulated socks datagram with
      | dropped => exact congrArg (List.cons _) (ih true others)
      | forwarded frame => exact congrArg (List.cons _) (ih true others)
      | failed err => rfl
      | panicked => exact absurd outcome (decapsulated_ne_panicked datagram)

/-! ## Datagrams of the tunnel -/

theorem encapsulate_fits {payload : Bytes} {addr : α}
    (fits : 3 + (socks.write addr).length + payload.length ≤ buf.length) :
    ∃ after, after.length = buf.length ∧
      encapsulate socks (refill buf payload) payload.length addr =
        some (after, encapsulated socks (payload, addr)) := by
  have small : payload.length ≤ buf.length := by omega
  have size := length_refill small
  have moved : slice (refill buf payload) 0 payload.length = some payload := slice_refill small (Nat.zero_le _)
  -- the buffer as three bytes, the place of the address, that of the payload, and the rest
  obtain ⟨first, rest, layout, three, left⟩ := exists_split (by omega : 3 ≤ (refill buf payload).length)
  obtain ⟨second, rest, rfl, middle, left⟩ := exists_split (by omega : (socks.write addr).length ≤ rest.length)
  obtain ⟨third, back, rfl, last, left⟩ := exists_split (by omega : payload.length ≤ rest.length)
  have copied : copyWithin (refill buf payload) payload.length (2 + 1 + socks.serializedLen addr) =
      some (first ++ (second ++ (payload ++ back))) := by
    have place : 2 + 1 + socks.serializedLen addr = (first ++ second).length := by
      rw [List.length_append, three, middle, socks.serializedLen_eq]
    have spliced := splice_eq (first ++ second) back last
    rw [List.append_assoc, List.append_assoc] at spliced
    rw [copyWithin, moved, place, layout]
    exact spliced
  have cleared : splice (first ++ (second ++ (payload ++ back))) 0 [0x00, 0x00, 0x00] =
      some ([0x00, 0x00, 0x00] ++ (second ++ (payload ++ back))) := splice_eq [] _ three
  have addressed : splice ([0x00, 0x00, 0x00] ++ (second ++ (payload ++ back))) 3 (socks.write addr) =
      some ([0x00, 0x00, 0x00] ++ (socks.write addr ++ (payload ++ back))) :=
    splice_eq [0x00, 0x00, 0x00] _ middle
  have whole : [0x00, 0x00, 0x00] ++ (socks.write addr ++ (payload ++ back)) =
      encapsulated socks (payload, addr) ++ back := by
    simp only [encapsulated, List.append_assoc]
  have sent : 3 + payload.length + socks.serializedLen addr = (encapsulated socks (payload, addr)).length := by
    simp only [encapsulated, List.length_append, List.length_cons, List.length_nil, socks.serializedLen_eq]
    omega
  refine ⟨encapsulated socks (payload, addr) ++ back, ?_, ?_⟩
  · rw [← size, layout, ← whole]
    simp only [List.length_append, List.length_cons, List.length_nil]
    omega
  · have room : (socks.write addr).length ≤ socks.serializedLen addr := Nat.le_of_eq (socks.serializedLen_eq addr).symm
    simp only [encapsulate, copied, cleared, room, if_true, addressed, Option.bind_eq_bind, Option.bind_some]
    rw [sent, whole, slice_prefix]
    rfl

theorem encapsulate_overflows {payload : Bytes} {addr : α} (small : payload.length ≤ buf.length)
    (full : buf.length < 3 + (socks.write addr).length + payload.length) :
    encapsulate socks (refill buf payload) payload.length addr = none := by
  have moved : slice (refill buf payload) 0 payload.length = some payload := slice_refill small (Nat.zero_le _)
  have refused : copyWithin (refill buf payload) payload.length (2 + 1 + socks.serializedLen addr) = none := by
    rw [copyWithin, moved, socks.serializedLen_eq]
    apply splice_overflow
    rw [length_refill small]
    omega
  rw [encapsulate, refused]
  rfl

theorem received_eq (stream : Bytes) :
    received socks stream = match recvFrom socks.toSocks5 maxDatagramSize stream with
      | (.closed, _) => ([], .closed)
      | (.failed err, _) => ([], .failed err)
      | (.panicked, _) => ([], .panicked)
      | (.datagram payload addr, rest) => ((payload, addr) :: (received socks rest).1, (received socks rest).2) := by
  rw [received]
  split <;> next found => rw [found]

theorem btoa_eq (size : buf.length = maxDatagramSize) (stream : Bytes) :
    btoa socks buf stream = match recvFrom socks.toSocks5 maxDatagramSize stream with
      | (.closed, _) => ([], .closed)
      | (.failed err, _) => ([], .failed err)
      | (.panicked, _) => ([], .panicked)
      | (.datagram payload addr, rest) =>
        match encapsulate socks (refill buf payload) payload.length addr with
        | none => ([], .panicked)
        | some (after, sent) => (sent :: (btoa socks after rest).1, (btoa socks after rest).2) := by
  rw [btoa, ← size]
  split <;> next found => rw [found]

/-- The datagrams go out as they are meant to if each of them fits. -/
theorem btoa_iff (stream : Bytes) (size : buf.length = maxDatagramSize) :
    btoa socks buf stream = ((received socks stream).1.map (encapsulated socks), (received socks stream).2) ↔
      ∀ message ∈ (received socks stream).1, Fits socks message := by
  induction stream using received.induct socks generalizing buf with
  | case1 stream left found =>
    rw [btoa_eq size, received_eq, found]
    exact iff_of_true rfl nofun
  | case2 stream err left found =>
    rw [btoa_eq size, received_eq, found]
    exact iff_of_true rfl nofun
  | case3 stream left found =>
    rw [btoa_eq size, received_eq, found]
    exact iff_of_true rfl nofun
  | case4 stream payload addr rest found ih =>
    have small := (recvFrom_shorter found).2
    rw [btoa_eq size, received_eq, found]
    dsimp only
    rw [List.forall_mem_cons, List.map_cons]
    by_cases fits : Fits socks (payload, addr)
    · have room : 3 + (socks.write addr).length + payload.length ≤ buf.length := by
        rw [size]
        exact fits
      obtain ⟨after, same, sent⟩ := encapsulate_fits room
      have later := ih (same.trans size)
      rw [sent]
      dsimp only
      rw [and_iff_right fits, ← later, Prod.ext_iff, Prod.ext_iff]
      exact and_congr_left fun _ => List.cons_inj_right _
    · have full : buf.length < 3 + (socks.write addr).length + payload.length := by
        rw [size]
        exact Nat.not_le.mp fits
      rw [encapsulate_overflows (by omega) full]
      exact iff_of_false nofun fun both => fits both.1

/-- Both halves of the relay do what is meant, whatever is in their buffers, for datagrams of at least
three bytes and for messages that fit the buffer with their header; and only for those. -/
theorem udp_relay_exact_iff (socks : Socks5Sync α) :
    (∀ datagram, datagram.length ≤ maxDatagramSize →
      decapsulated socks datagram ≠ .panicked ∧
      (∀ frame, decapsulated socks datagram = .forwarded frame ↔
        ∃ payload addr, Encapsulates socks datagram payload addr ∧ frame = sendTo socks.toSocks5 (payload, addr)) ∧
      ((∀ buf, buf.length = maxDatagramSize → clientTurn socks (.ok ()) buf datagram = decapsulated socks datagram) ↔
        3 ≤ datagram.length)) ∧
    (∀ datagrams : List Bytes, (∀ d ∈ datagrams, 3 ≤ d.length ∧ d.length ≤ maxDatagramSize) →
      ∀ associate associated buf, buf.length = maxDatagramSize →
        atob socks associate associated buf datagrams = relayed socks associate associated datagrams) ∧
    ∀ stream buf, buf.length = maxDatagramSize →
      (btoa socks buf stream = ((received socks stream).1.map (encapsulated socks), (received socks stream).2) ↔
        ∀ message ∈ (received socks stream).1, Fits socks message) := by
  refine ⟨?_, ?_, fun stream buf size => btoa_iff stream size⟩
  · intro datagram small
    refine ⟨decapsulated_ne_panicked datagram, decapsulated_forwarded datagram, ?_, ?_⟩
    · intro exact_
      by_contra short
      have panicked := @clientTurn_short α socks datagram (Nat.not_le.mp short)
      rw [exact_ _ List.length_replicate] at panicked
      exact decapsulated_ne_panicked datagram panicked
    · intro long buf size
      exact clientTurn_long (by omega) long
  · intro datagrams long associate associated buf size
    rw [← size] at long
    exact atob_long associate associated long

def Addr.socks5Sync : Socks5Sync Addr where
  toSocks5 := Addr.socks5
  serializedLen
    | .v4 .. => 1 + 4 + 2
    | .v6 .. => 1 + 16 + 2
    | .domain host .. => 1 + 1 + host.length + 2
  serializedLen_eq addr := by
    cases addr with
    | v4 ip port => rfl
    | v6 high low port => rfl
    | domain host port short valid =>
      show 1 + 1 + host.length + 2 = (0x03 :: UInt8.ofNat host.length :: (host ++ be16 port.toNat)).length
      simp only [List.length_cons, List.length_append, be16_length]
      rw [Nat.add_comm (1 + 1) host.length]
  read_ok bytes addr rest h := Addr.eq_of_read h

/-- A message that the tunnel carries whole and that has no room in the buffer behind its header. -/
theorem long_message_panics {payload : Bytes} (length : payload.length = 65500) :
    (received Addr.socks5Sync (sendTo Addr.socks5 (payload, .v4 16843009 53))).1 = [(payload, .v4 16843009 53)] ∧
    ∀ buf, buf.length = maxDatagramSize →
      btoa Addr.socks5Sync buf (sendTo Addr.socks5 (payload, .v4 16843009 53)) = ([], .panicked) := by
  have found : recvFrom Addr.socks5Sync.toSocks5 maxDatagramSize (sendTo Addr.socks5 (payload, .v4 16843009 53)) =
      (.datagram payload (.v4 16843009 53), []) := by
    have round := @recvFrom_sendTo _ Addr.socks5 (payload, .v4 16843009 53) maxDatagramSize (by rw [length]; decide) []
    rwa [List.append_nil, if_pos (by rw [length]; decide)] at round
  constructor
  · rw [received_eq, found]
    dsimp only
    rw [received_eq]
    rfl
  · intro buf size
    rw [btoa_eq size, found]
    dsimp only
    rw [encapsulate_overflows]
    · rw [size, length]
      decide
    · rw [size, length]
      decide

/-- An empty datagram: a panic, or a decision by what is left in the buffer. And a message that fits the
buffer without its header only. -/
theorem udp_relay_inexact :
    clientTurn Addr.socks5Sync (.ok ()) (List.replicate maxDatagramSize 0) [] = .panicked ∧
    clientTurn Addr.socks5Sync (.ok ()) (List.replicate maxDatagramSize 1) [] = .dropped ∧
    (received Addr.socks5Sync (sendTo Addr.socks5 (List.replicate 65500 0, .v4 16843009 53))).1 =
      [(List.replicate 65500 0, .v4 16843009 53)] ∧
    ∀ buf, buf.length = maxDatagramSize →
      btoa Addr.socks5Sync buf (sendTo Addr.socks5 (List.replicate 65500 0, .v4 16843009 53)) = ([], .panicked) := by
  refine ⟨clientTurn_short (by decide), ?_, long_message_panics List.length_replicate⟩
  have third : (refill (List.replicate maxDatagramSize (1 : UInt8)) [])[2]? = some 1 := by
    rw [refill, List.nil_append, List.length_nil, List.drop_zero, List.getElem?_replicate, if_pos (by decide)]
  rw [clientTurn_eq (Nat.zero_le _), fromClient, third]
  rfl

end NoisyShuttle.Shuttle
