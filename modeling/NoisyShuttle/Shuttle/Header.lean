import NoisyShuttle.Shuttle.Remote
import NoisyShuttle.Shuttle.SessionLoop

/-!
# One request, two paths

The encoded Trojan-like request is parsed whole by the server of a one-shot tunnel, and taken apart by
the client of a reusable session into an `OpenRequest`, whose fields the session loop puts together again.
-/

namespace NoisyShuttle.Shuttle
open Session
open Tunnel (IoError)

namespace Addr

def atyp : Addr → UInt8
  | .v4 _ _ => 0x01
  | .v6 _ _ _ => 0x04
  | .domain _ _ _ _ => 0x03

def port : Addr → UInt16
  | .v4 _ port | .v6 _ _ port | .domain _ port _ _ => port

def octets : Addr → Bytes
  | .v4 ip _ => be32 ip.toNat
  | .v6 high low _ => be64 high.toNat ++ be64 low.toNat
  | .domain host _ _ _ => host

/-- The length byte, which only the Trojan header has. -/
def lead : Addr → Bytes
  | .domain host _ _ _ => [UInt8.ofNat host.length]
  | _ => []

def destination : Addr → Destination
  | .v4 ip port => .v4 (be32 ip.toNat) port
  | .v6 high low port => .v6 (be64 high.toNat ++ be64 low.toNat) port
  | .domain host port _ _ => .domain host port

theorem write_eq (addr : Addr) : addr.write = addr.atyp :: (addr.lead ++ (addr.octets ++ be16 addr.port.toNat)) := by
  cases addr with
  | v4 ip port => rfl
  | v6 high low port =>
    simp only [write, atyp, lead, octets, Addr.port, List.append_assoc, List.nil_append]
  | domain host port short valid => rfl

theorem destination_injective {first second : Addr} (h : first.destination = second.destination) : first = second := by
  cases first with
  | v4 ip port =>
    cases second with
    | v4 ip' port' =>
      obtain ⟨octets, rfl⟩ := Destination.v4.inj h
      rw [UInt32.toNat_inj.mp (be32_injective ip.toNat_lt ip'.toNat_lt octets)]
    | _ => cases h
  | v6 high low port =>
    cases second with
    | v6 high' low' port' =>
      obtain ⟨octets, rfl⟩ := Destination.v6.inj h
      obtain ⟨highs, lows⟩ := List.append_inj octets rfl
      rw [UInt64.toNat_inj.mp (be64_injective high.toNat_lt high'.toNat_lt highs),
        UInt64.toNat_inj.mp (be64_injective low.toNat_lt low'.toNat_lt lows)]
    | _ => cases h
  | domain host port short valid =>
    cases second with
    | domain host' port' short' valid' =>
      obtain ⟨rfl, rfl⟩ := Destination.domain.inj h
      rfl
    | _ => cases h

theorem frameAddr_destination (addr : Addr) :
    frameAddrToTrojanAddr addr.atyp addr.octets addr.port = .ok addr.destination := by
  cases addr with
  | v4 ip port => rfl
  | v6 high low port => rfl
  | domain host port short valid => exact if_pos valid

theorem octets_length_le (addr : Addr) : addr.octets.length ≤ 255 := by
  cases addr with
  | v4 ip port => exact Nat.le_of_ble_eq_true rfl
  | v6 high low port => exact Nat.le_of_ble_eq_true rfl
  | domain host port short valid => exact short

end Addr

/-- An address field and the port after it, wherever they lie in the buffer. -/
theorem openRequestAt_layout (cmd atyp : UInt8) (before addr rest : Bytes) (port : UInt16) :
    openRequestAt (before ++ (addr ++ (be16 port.toNat ++ rest))) cmd atyp before.length
      (before.length + addr.length) (before.length + addr.length) = .ok (.openRequest cmd atyp addr port) := by
  have ported : (before ++ (addr ++ (be16 port.toNat ++ rest))).drop (before.length + addr.length) =
      be16 port.toNat ++ rest := by
    rw [← List.append_assoc, ← List.length_append, List.drop_left]
  have addressed : ((before ++ (addr ++ (be16 port.toNat ++ rest))).take (before.length + addr.length)).drop
      before.length = addr := by
    rw [← List.append_assoc, ← List.length_append, List.take_left, List.drop_left]
  unfold openRequestAt
  rw [ported, addressed]
  simp only [be16, List.cons_append, List.nil_append, ofBe16_be16 port.toNat_lt, UInt16.ofNat_toNat]

theorem openRequest_of_header (cmd : UInt8) (addr : Addr) (rest : Bytes) :
    openRequestFromTrojanHeader (some (cmd :: (addr.write ++ rest))) =
      .ok (.openRequest cmd addr.atyp addr.octets addr.port) := by
  have layout := openRequestAt_layout cmd addr.atyp (cmd :: addr.atyp :: addr.lead) addr.octets rest addr.port
  have whole : cmd :: (addr.write ++ rest) =
      cmd :: addr.atyp :: addr.lead ++ (addr.octets ++ (be16 addr.port.toNat ++ rest)) := by
    rw [addr.write_eq]
    simp
  rw [whole]
  cases addr with
  | v4 ip port => exact layout
  | v6 high low port => exact layout
  | domain host port short valid =>
    have len := toNat_lengthByte short
    simp only [openRequestFromTrojanHeader, Addr.atyp, Addr.lead, List.cons_append, List.nil_append]
    rw [if_neg (by decide), if_neg (by decide), if_true, len]
    exact layout

theorem trojanAddrLen_write (addr : Addr) (rest : Bytes) :
    ∃ third fourth more, addr.lead ++ (addr.octets ++ (be16 addr.port.toNat ++ rest)) = third :: fourth :: more ∧
      trojanAddrLen addr.atyp third = .ok (addr.lead.length + addr.octets.length) := by
  cases addr with
  | v4 ip port => exact ⟨_, _, _, rfl, rfl⟩
  | v6 high low port => exact ⟨_, _, _, rfl, rfl⟩
  | domain host port short valid =>
    have measured : trojanAddrLen 0x03 (UInt8.ofNat host.length) = .ok (1 + host.length) := by
      rw [trojanAddrLen, if_neg (by decide), if_neg (by decide), if_pos rfl,
        toNat_lengthByte short, Nat.add_comm]
    cases host with
    | nil => exact ⟨_, _, _, rfl, measured⟩
    | cons byte more => exact ⟨_, _, _, rfl, measured⟩

theorem trojanHeaderLen_write (cmd : UInt8) (addr : Addr) (payload : Bytes) :
    trojanHeaderLen (cmd :: (addr.write ++ [0x0d, 0x0a]) ++ payload) =
      .ok (cmd :: (addr.write ++ [0x0d, 0x0a])).length := by
  obtain ⟨third, fourth, more, split, measured⟩ := trojanAddrLen_write addr (0x0d :: 0x0a :: payload)
  have whole : cmd :: (addr.write ++ [0x0d, 0x0a]) ++ payload = cmd :: addr.atyp :: third :: fourth :: more := by
    rw [← split, addr.write_eq]
    simp
  have length : (cmd :: (addr.write ++ [0x0d, 0x0a])).length =
      1 + 1 + (addr.lead.length + addr.octets.length) + 2 + 2 := by
    rw [addr.write_eq]
    simp only [List.length_cons, List.length_append, List.length_nil, be16_length]
    omega
  have fits : 1 + 1 + (addr.lead.length + addr.octets.length) + 2 + 2 ≤
      (cmd :: addr.atyp :: third :: fourth :: more).length := by
    rw [← length, ← whole, List.length_append]
    omega
  rw [whole, trojanHeaderLen, measured, length]
  exact if_pos fits

theorem openRequest_sized (cmd : UInt8) (addr : Addr) :
    (Frame.openRequest cmd addr.atyp addr.octets addr.port).Sized := by
  have short := addr.octets_length_le
  simp only [Frame.Sized, Frame.payload, maxFramePayload, List.length_cons, List.length_append, be16_length]
  omega

/-- The first `Data` frame carries the payload after the header, and what the first read adds to it; that is at most
what makes up `MAX_FIRST_PACKET_SIZE`, and nothing behind a longer payload. -/
theorem firstData_fits {script : Script} {header payload : Bytes}
    (measured : trojanHeaderLen (header ++ payload) = .ok header.length) (fits : payload.length ≤ maxFramePayload) :
    (Frame.data (payload ++ script.firstBytes (header ++ payload))).Sized ∧
      script.firstData (header ++ payload) =
        .ok (if payload ++ script.firstBytes (header ++ payload) = [] then none
          else some (payload ++ script.firstBytes (header ++ payload))) := by
  have sized : (Frame.data (payload ++ script.firstBytes (header ++ payload))).Sized := by
    change (payload ++ script.firstBytes (header ++ payload)).length ≤ maxFramePayload
    unfold Script.firstBytes
    split
    · next short =>
      simp only [List.length_append, maxFirstPacketSize] at short
      split
      · rw [List.length_append, List.length_take, List.length_append]
        simp only [maxFramePayload, maxFirstPacketSize]
        omega
      · rw [List.append_nil]
        exact fits
    · rw [List.append_nil]
      exact fits
  refine ⟨sized, ?_⟩
  rw [Script.firstData_eq measured, List.drop_left, if_pos sized]
  split <;> rfl

theorem firstData_panics {script : Script} {header payload : Bytes}
    (measured : trojanHeaderLen (header ++ payload) = .ok header.length) (long : maxFramePayload < payload.length) :
    script.firstData (header ++ payload) = .panicked := by
  have unsized : ¬ (Frame.data (payload ++ script.firstBytes (header ++ payload))).Sized := by
    intro sized
    change (payload ++ script.firstBytes (header ++ payload)).length ≤ maxFramePayload at sized
    rw [List.length_append] at sized
    omega
  have some_ : payload ++ script.firstBytes (header ++ payload) ≠ [] := by
    intro none
    rw [(List.append_eq_nil_iff.mp none).1] at long
    exact absurd long (Nat.not_lt_zero _)
  rw [Script.firstData_eq measured, List.drop_left, if_neg some_, if_neg unsized]

/-- What `relay_tcp_frames` has sent whenever it returns. -/
theorem relayTcpFrames_first {script : Script} {outbuf data : Bytes} {result : Except RelayError (Nat × Nat)}
    {exchanged : Exchanged} (first : script.firstData outbuf = .ok (some data)) (written : script.firstWritten = .all)
    (h : relayTcpFrames script outbuf = some (result, exchanged)) : ∃ later, exchanged.data = data :: later := by
  unfold relayTcpFrames at h
  rw [first] at h
  dsimp only at h
  rw [written] at h
  obtain ⟨⟨_, later⟩, -, eq⟩ := Option.map_eq_some_iff.mp h
  cases eq
  exact ⟨later.data, rfl⟩

theorem encoded_wire {socks : Socks5 Addr} (wire : ∀ addr, socks.write addr = addr.write) (addr : Addr) :
    TrojanLikeRequest.encoded socks ⟨.connect, addr⟩ = Cmd.connect.toU8 :: (addr.write ++ [0x0d, 0x0a]) := by
  rw [TrojanLikeRequest.encoded, wire]

/-- A reusable session asks for the address the one-shot tunnel asks for. Its first `Data` frame is the payload
behind the header and what the first read adds to it, if the payload fits a frame; otherwise its encoding panics. -/
theorem reusable_names_same_request (socks : Socks5 Addr) (wire : ∀ addr, socks.write addr = addr.write)
    (addr : Addr) (payload : Bytes) :
    readTrojanLikeRequest socks (TrojanLikeRequest.encoded socks ⟨.connect, addr⟩ ++ payload) =
      (.ok ⟨.connect, addr⟩, payload) ∧
    (∃ (atyp : UInt8) (octets : Bytes) (port : UInt16) (sent : Bytes),
      openRequestFromTrojanHeader (some (TrojanLikeRequest.encoded socks ⟨.connect, addr⟩ ++ payload)) =
        .ok (.openRequest Cmd.connect.toU8 atyp octets port) ∧
      (Frame.openRequest Cmd.connect.toU8 atyp octets port).encode = .ok sent ∧
      (∀ rest, readFrame (sent ++ rest) = (.ok (.openRequest Cmd.connect.toU8 atyp octets port), rest)) ∧
      ∀ other : Addr, frameAddrToTrojanAddr atyp octets port = .ok other.destination ↔ other = addr) ∧
    trojanHeaderLen (TrojanLikeRequest.encoded socks ⟨.connect, addr⟩ ++ payload) =
      .ok (TrojanLikeRequest.encoded socks ⟨.connect, addr⟩).length ∧
    ∀ (script : Script) (more : Bytes),
      more = script.firstBytes (TrojanLikeRequest.encoded socks ⟨.connect, addr⟩ ++ payload) →
      (payload.length ≤ maxFramePayload →
        script.firstData (TrojanLikeRequest.encoded socks ⟨.connect, addr⟩ ++ payload) =
          .ok (if payload ++ more = [] then none else some (payload ++ more)) ∧
        (∃ sent, (Frame.data (payload ++ more)).encode = .ok sent ∧
          ∀ rest, readFrame (sent ++ rest) = (.ok (.data (payload ++ more)), rest)) ∧
        ∀ (result : Except RelayError (Nat × Nat)) (exchanged : Exchanged),
          relayTcpFrames script (TrojanLikeRequest.encoded socks ⟨.connect, addr⟩ ++ payload) =
            some (result, exchanged) →
          script.firstWritten = .all → payload ≠ [] → ∃ later, exchanged.data = (payload ++ more) :: later) ∧
      (maxFramePayload < payload.length →
        script.firstData (TrojanLikeRequest.encoded socks ⟨.connect, addr⟩ ++ payload) = .panicked) := by
  have measured : trojanHeaderLen (TrojanLikeRequest.encoded socks ⟨.connect, addr⟩ ++ payload) =
      .ok (TrojanLikeRequest.encoded socks ⟨.connect, addr⟩).length := by
    rw [encoded_wire wire]
    exact trojanHeaderLen_write Cmd.connect.toU8 addr payload
  have sized := openRequest_sized Cmd.connect.toU8 addr
  refine ⟨readTrojanLikeRequest_encoded socks _ payload, ⟨_, _, _, _, ?_, Frame.encode_sized sized,
    readFrame_bytes sized, ?_⟩, measured, ?_⟩
  · rw [encoded_wire wire, List.cons_append, List.append_assoc]
    exact openRequest_of_header _ addr _
  · intro other
    rw [addr.frameAddr_destination]
    constructor
    · intro same
      exact (Addr.destination_injective (Except.ok.inj same)).symm
    · rintro rfl
      rfl
  · rintro script more rfl
    refine ⟨?_, firstData_panics measured⟩
    intro fits
    obtain ⟨sized, first⟩ := @firstData_fits script _ _ measured fits
    refine ⟨first, ⟨_, Frame.encode_sized sized, readFrame_bytes sized⟩, ?_⟩
    intro result exchanged ran written some_
    rw [if_neg (by simp [some_])] at first
    exact relayTcpFrames_first first written ran

theorem reusable_names_same_loopback :
    readTrojanLikeRequest Addr.socks5 ([1, 1, 127, 0, 0, 1, 0, 80, 13, 10] ++ [7]) =
      (.ok ⟨.connect, .v4 2130706433 80⟩, [7]) ∧
    trojanHeaderLen ([1, 1, 127, 0, 0, 1, 0, 80, 13, 10] ++ [7]) = .ok 10 ∧
    resetScript.firstData ([1, 1, 127, 0, 0, 1, 0, 80, 13, 10] ++ [7]) = .ok (some [7, 0x47, 0x45, 0x54]) := by
  obtain ⟨read, -, measured, first⟩ :=
    reusable_names_same_request Addr.socks5 (fun _ => rfl) (.v4 2130706433 80) [7]
  exact ⟨read, measured, ((first resetScript [0x47, 0x45, 0x54] (by decide +kernel)).1 (by decide)).1⟩

/-- One byte more than a frame can hold. -/
theorem reusable_first_packet_panics :
    (List.replicate 65536 (7 : UInt8)).length = maxFramePayload + 1 ∧
      resetScript.firstData (connectHeader ++ List.replicate 65536 7) = .panicked ∧
      relayTcpFrames resetScript (connectHeader ++ List.replicate 65536 7) = none := by
  have length : (List.replicate 65536 (7 : UInt8)).length = maxFramePayload + 1 := List.length_replicate
  have measured : trojanHeaderLen (connectHeader ++ List.replicate 65536 7) = .ok connectHeader.length :=
    trojanHeaderLen_write 0x01 (.v4 2130706433 80) _
  have panicked := @firstData_panics resetScript _ _ measured (by rw [length]; exact Nat.lt_succ_self _)
  refine ⟨length, panicked, ?_⟩
  unfold relayTcpFrames
  rw [panicked]

end NoisyShuttle.Shuttle
