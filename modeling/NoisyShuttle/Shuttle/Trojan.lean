import NoisyShuttle.Tunnel.Tls

/-!
# Trojan-like requests

The address codec is the crate `socks5_protocol`: the parameter `Socks5` with what is assumed of it,
and `Addr.socks5`, the wire format of RFC 1928.
-/

namespace NoisyShuttle.Shuttle
open Tunnel (IoError earlyEof)

def crlf : Nat := 0x0d0a

inductive Cmd where
  | connect | udpAssociate
  deriving DecidableEq, Repr

def Cmd.toU8 : Cmd → UInt8
  | .connect => 0x01
  | .udpAssociate => 0x03

def Cmd.fromU8 (t : UInt8) : Option Cmd :=
  if t = 0x01 then some .connect else if t = 0x03 then some .udpAssociate else none

theorem Cmd.fromU8_toU8 (cmd : Cmd) : Cmd.fromU8 cmd.toU8 = some cmd := by cases cmd <;> rfl

/-- `Address::read` and `Address::write`: a read returns what it left in the stream, also when it
fails. -/
structure Socks5 (α : Type) where
  write : α → Bytes
  read : Bytes → Except IoError α × Bytes
  read_write : ∀ addr rest, read (write addr ++ rest) = (.ok addr, rest)

structure TrojanLikeRequest (α : Type) where
  cmd : Cmd
  destAddr : α
  deriving DecidableEq

section

variable {α : Type} (socks : Socks5 α)

def TrojanLikeRequest.encoded (req : TrojanLikeRequest α) : Bytes :=
  req.cmd.toU8 :: (socks.write req.destAddr ++ [0x0d, 0x0a])

def unsupportedCommand : IoError := ⟨.invalidData, "client request unspported command"⟩

def malformedRequest : IoError := ⟨.other, "malformed trojan-like request"⟩

/-- `read_u8` and `read_u16` at the end of the stream; `read_exact` has a text of its own. -/
def unexpectedEnd : IoError := ⟨.unexpectedEof, "unexpected end of file"⟩

def readTrojanLikeRequest : Bytes → Except IoError (TrojanLikeRequest α) × Bytes
  | [] => (.error unexpectedEnd, [])
  | t :: stream =>
    match Cmd.fromU8 t with
    | none => (.error unsupportedCommand, stream)
    | some cmd =>
      match socks.read stream with
      | (.error err, rest) => (.error err, rest)
      | (.ok addr, hi :: lo :: rest) =>
        if ofBe16 hi lo = crlf then (.ok ⟨cmd, addr⟩, rest) else (.error malformedRequest, rest)
      | (.ok _, _) => (.error unexpectedEnd, [])

theorem readTrojanLikeRequest_encoded (req : TrojanLikeRequest α) (rest : Bytes) :
    readTrojanLikeRequest socks (req.encoded socks ++ rest) = (.ok req, rest) := by
  have address := socks.read_write req.destAddr (0x0d :: 0x0a :: rest)
  simp only [TrojanLikeRequest.encoded, List.cons_append, List.append_assoc, List.nil_append,
    readTrojanLikeRequest, Cmd.fromU8_toU8, address]
  rw [if_pos (by decide)]

end

/-! ## The addresses of RFC 1928 -/

def utf8 (bytes : Bytes) : Bool := ByteArray.validateUTF8 ⟨bytes.toArray⟩

inductive Addr where
  | v4 (ip : UInt32) (port : UInt16)
  | v6 (high low : UInt64) (port : UInt16)
  | domain (host : Bytes) (port : UInt16) (short : host.length ≤ 255) (valid : utf8 host = true)
  deriving DecidableEq

namespace Addr

def write : Addr → Bytes
  | .v4 ip port => 0x01 :: (be32 ip.toNat ++ be16 port.toNat)
  | .v6 high low port => 0x04 :: (be64 high.toNat ++ be64 low.toNat ++ be16 port.toNat)
  | .domain host port _ _ => 0x03 :: UInt8.ofNat host.length :: (host ++ be16 port.toNat)

def readPort (build : UInt16 → Addr) : Bytes → Except IoError Addr × Bytes
  | hi :: lo :: rest => (.ok (build (UInt16.ofNat (ofBe16 hi lo))), rest)
  | _ => (.error earlyEof, [])

def readV4 : Bytes → Except IoError Addr × Bytes
  | b₃ :: b₂ :: b₁ :: b₀ :: rest => readPort (.v4 (UInt32.ofNat (ofBe32 b₃ b₂ b₁ b₀))) rest
  | _ => (.error earlyEof, [])

def readV6 (stream : Bytes) : Except IoError Addr × Bytes :=
  match readExact 8 stream with
  | none => (.error earlyEof, [])
  | some (high, stream) =>
    match readExact 8 stream with
    | none => (.error earlyEof, [])
    | some (low, rest) => readPort (.v6 (UInt64.ofNat (ofBe64 high)) (UInt64.ofNat (ofBe64 low))) rest

def readDomain : Bytes → Except IoError Addr × Bytes
  | [] => (.error earlyEof, [])
  | len :: stream =>
    match readExact len.toNat stream with
    | none => (.error earlyEof, [])
    | some (host, rest) =>
      if valid : host.length ≤ 255 ∧ utf8 host = true then
        readPort (fun port => .domain host port valid.1 valid.2) rest
      else (.error ⟨.other, "invalid domain"⟩, rest)

def read : Bytes → Except IoError Addr × Bytes
  | [] => (.error earlyEof, [])
  | atyp :: stream =>
    if atyp = 0x01 then readV4 stream
    else if atyp = 0x03 then readDomain stream
    else if atyp = 0x04 then readV6 stream
    else (.error ⟨.other, "invalid address type"⟩, stream)

theorem readPort_be16 (build : UInt16 → Addr) (port : UInt16) (rest : Bytes) :
    readPort build (be16 port.toNat ++ rest) = (.ok (build port), rest) := by
  simp only [be16, List.cons_append, List.nil_append, readPort, ofBe16_be16 port.toNat_lt, UInt16.ofNat_toNat]

theorem readV4_write (ip : UInt32) (port : UInt16) (rest : Bytes) :
    readV4 (be32 ip.toNat ++ (be16 port.toNat ++ rest)) = (.ok (.v4 ip port), rest) := by
  simp only [be32, List.cons_append, List.nil_append, readV4, ofBe32_be32 ip.toNat_lt, UInt32.ofNat_toNat,
    readPort_be16]

theorem readV6_write (high low : UInt64) (port : UInt16) (rest : Bytes) :
    readV6 (be64 high.toNat ++ (be64 low.toNat ++ (be16 port.toNat ++ rest))) = (.ok (.v6 high low port), rest) := by
  have first := readExact_append (be64 high.toNat) (be64 low.toNat ++ (be16 port.toNat ++ rest))
  have second := readExact_append (be64 low.toNat) (be16 port.toNat ++ rest)
  rw [be64_length] at first second
  unfold readV6
  rw [first]
  dsimp only
  rw [second]
  dsimp only
  rw [ofBe64_be64 high.toNat_lt, ofBe64_be64 low.toNat_lt, UInt64.ofNat_toNat, UInt64.ofNat_toNat, readPort_be16]

theorem readDomain_write (host : Bytes) (port : UInt16) (short : host.length ≤ 255) (valid : utf8 host = true)
    (rest : Bytes) :
    readDomain (UInt8.ofNat host.length :: (host ++ (be16 port.toNat ++ rest))) =
      (.ok (.domain host port short valid), rest) := by
  have len := toNat_lengthByte short
  have took := readExact_append host (be16 port.toNat ++ rest)
  simp only [readDomain, len, took]
  rw [dif_pos ⟨short, valid⟩, readPort_be16]

theorem read_write (addr : Addr) (rest : Bytes) : read (addr.write ++ rest) = (.ok addr, rest) := by
  cases addr with
  | v4 ip port =>
    rw [write, List.cons_append, List.append_assoc]
    exact readV4_write ip port rest
  | v6 high low port =>
    rw [write, List.cons_append, List.append_assoc, List.append_assoc]
    exact readV6_write high low port rest
  | domain host port short valid =>
    rw [write, List.cons_append, List.cons_append, List.append_assoc]
    exact readDomain_write host port short valid rest

theorem readPort_ok {build : UInt16 → Addr} {bytes rest : Bytes} {addr : Addr}
    (h : readPort build bytes = (.ok addr, rest)) :
    ∃ port, addr = build port ∧ bytes = be16 port.toNat ++ rest := by
  match bytes with
  | [] | [_] => cases h
  | hi :: lo :: later =>
    cases h
    refine ⟨_, rfl, ?_⟩
    rw [UInt16.toNat_ofNat_of_lt' (ofBe16_lt hi lo), be16_ofBe16]
    rfl

theorem readV4_ok {bytes rest : Bytes} {addr : Addr} (h : readV4 bytes = (.ok addr, rest)) :
    0x01 :: bytes = addr.write ++ rest := by
  match bytes with
  | [] | [_] | [_, _] | [_, _, _] => cases h
  | b₃ :: b₂ :: b₁ :: b₀ :: later =>
    obtain ⟨port, rfl, rfl⟩ := readPort_ok h
    rw [write, UInt32.toNat_ofNat_of_lt' (ofBe32_lt ..), be32_ofBe32]
    simp

theorem readV6_ok {bytes rest : Bytes} {addr : Addr} (h : readV6 bytes = (.ok addr, rest)) :
    0x04 :: bytes = addr.write ++ rest := by
  unfold readV6 at h
  split at h
  · cases h
  · next high later first =>
    split at h
    · cases h
    · next low last second =>
      obtain ⟨rfl, left⟩ := readExact_eq_some.mp first
      obtain ⟨rfl, right⟩ := readExact_eq_some.mp second
      obtain ⟨port, rfl, rfl⟩ := readPort_ok h
      rw [write, UInt64.toNat_ofNat_of_lt' (ofBe64_lt _), UInt64.toNat_ofNat_of_lt' (ofBe64_lt _), be64_ofBe64 left,
        be64_ofBe64 right]
      simp

theorem readDomain_ok {bytes rest : Bytes} {addr : Addr} (h : readDomain bytes = (.ok addr, rest)) :
    0x03 :: bytes = addr.write ++ rest := by
  match bytes with
  | [] => cases h
  | len :: stream =>
    unfold readDomain at h
    dsimp only at h
    split at h
    · cases h
    · next host later took =>
      obtain ⟨rfl, length⟩ := readExact_eq_some.mp took
      split at h
      · next valid =>
        obtain ⟨port, rfl, rfl⟩ := readPort_ok h
        rw [write, length, UInt8.ofNat_toNat]
        simp
      · cases h

/-- What is read is what would have been written. -/
theorem eq_of_read {bytes rest : Bytes} {addr : Addr} (h : read bytes = (.ok addr, rest)) :
    bytes = addr.write ++ rest := by
  match bytes with
  | [] => cases h
  | atyp :: stream =>
    unfold read at h
    dsimp only at h
    by_cases v4 : atyp = 0x01
    · subst v4
      exact readV4_ok h
    by_cases domain : atyp = 0x03
    · subst domain
      exact readDomain_ok h
    by_cases v6 : atyp = 0x04
    · subst v6
      exact readV6_ok h
    rw [if_neg v4, if_neg domain, if_neg v6] at h
    cases h

def socks5 : Socks5 Addr where
  write := write
  read := read
  read_write := read_write

end Addr
end NoisyShuttle.Shuttle
