import NoisyShuttle.Lib.Codec
import NoisyShuttle.Shuttle.Trojan

/-!
# Datagrams in a stream

`send_to` and `recv_from`, which carry UDP datagrams over a tunnel.
-/

namespace NoisyShuttle.Shuttle
open Tunnel (IoError earlyEof)

def maxDatagramSize : Nat := 65507

/-- What `recv_from` returns; `closed` is `Ok(None)`, `panicked` its failed assertion. -/
inductive Received (α : Type) where
  | datagram (payload : Bytes) (addr : α)
  | closed
  | failed (err : IoError)
  | panicked
  deriving DecidableEq

section
variable {α : Type} (socks : Socks5 α)

def sendTo (datagram : Bytes × α) : Bytes :=
  socks.write datagram.2 ++ (be16 (datagram.1.length % 65536) ++ ([0x0d, 0x0a] ++ datagram.1))

def recvFrom (bufLen : Nat) (stream : Bytes) : Received α × Bytes :=
  match socks.read stream with
  | (.error err, rest) => if err.kind = .unexpectedEof then (.closed, rest) else (.failed err, rest)
  | (.ok addr, hi :: lo :: cr :: lf :: stream) =>
    if ofBe16 cr lf ≠ crlf then (.failed malformedRequest, stream)
    else if ofBe16 hi lo < bufLen then
      match readExact (ofBe16 hi lo) stream with
      | some (payload, rest) => (.datagram payload addr, rest)
      | none => (.failed earlyEof, [])
    else (.panicked, stream)
  | (.ok _, _) => (.failed unexpectedEnd, [])

def Received.whole (datagram : Bytes × α) : Received α := .datagram datagram.1 datagram.2

variable {socks} {datagram : Bytes × α} {bufLen : Nat}

theorem recvFrom_sendTo (short : datagram.1.length < 65536) (rest : Bytes) :
    recvFrom socks bufLen (sendTo socks datagram ++ rest) =
      if datagram.1.length < bufLen then (.whole datagram, rest) else (.panicked, datagram.1 ++ rest) := by
  obtain ⟨payload, addr⟩ := datagram
  have address := socks.read_write addr
    (be16 (payload.length % 65536) ++ ([0x0d, 0x0a] ++ (payload ++ rest)))
  have layout : sendTo socks (payload, addr) ++ rest =
      socks.write addr ++ (be16 (payload.length % 65536) ++ ([0x0d, 0x0a] ++ (payload ++ rest))) := by
    simp [sendTo]
  unfold recvFrom
  rw [layout, address, Nat.mod_eq_of_lt short]
  simp only [be16, List.cons_append, List.nil_append, ofBe16_be16 short, readExact_append]
  rw [if_neg (by decide)]
  rfl

theorem recvFrom_delimits (fits : datagram.1.length < bufLen) (short : datagram.1.length < 65536) :
    Delimits (recvFrom socks bufLen) (sendTo socks) .whole datagram := by
  intro rest
  rw [recvFrom_sendTo short, if_pos fits]

theorem recvFrom_panics (full : bufLen ≤ datagram.1.length) (short : datagram.1.length < 65536) (rest : Bytes) :
    (recvFrom socks bufLen (sendTo socks datagram ++ rest)).1 = .panicked := by
  rw [recvFrom_sendTo short, if_neg (Nat.not_lt.mpr full)]

/-- The calls return the datagrams sent and then the end of the stream only if each fits the buffer. -/
theorem fit_of_received {datagrams : List (Bytes × α)} (small : ∀ d ∈ datagrams, d.1.length < 65536)
    (h : (readMany (recvFrom socks bufLen) (datagrams.length + 1) (datagrams.map (sendTo socks)).flatten).1 =
      datagrams.map .whole ++ [.closed]) : ∀ d ∈ datagrams, d.1.length < bufLen := by
  induction datagrams with
  | nil => simp
  | cons first later ih =>
    obtain ⟨shortFirst, shortLater⟩ := List.forall_mem_cons.mp small
    rw [List.map_cons, List.flatten_cons, List.length_cons, readMany] at h
    by_cases fits : first.1.length < bufLen
    · simp only [recvFrom_delimits fits shortFirst _, List.map_cons, List.cons_append, List.cons.injEq, true_and] at h
      exact List.forall_mem_cons.mpr ⟨fits, ih shortLater h⟩
    · have panicked :
          (recvFrom socks bufLen (sendTo socks first ++ (later.map (sendTo socks)).flatten)).1 = .panicked :=
        recvFrom_panics (Nat.not_lt.mp fits) shortFirst _
      have head := congrArg List.head? h
      simp only [List.head?_cons, List.map_cons, List.cons_append, panicked] at head
      cases head

end

/-- Any sequence of datagrams that the relays can read comes out of the stream as it went in, and then
its end, exactly when none of them fills the buffer. -/
theorem datagrams_round_trip_iff {α : Type} (socks : Socks5 α) (err : IoError) (eof : err.kind = .unexpectedEof)
    (ended : socks.read [] = (.error err, [])) (datagrams : List (Bytes × α))
    (small : ∀ d ∈ datagrams, d.1.length ≤ maxDatagramSize) :
    readMany (recvFrom socks maxDatagramSize) (datagrams.length + 1) (datagrams.map (sendTo socks)).flatten =
        (datagrams.map .whole ++ [.closed], []) ↔
      ∀ d ∈ datagrams, d.1.length < maxDatagramSize := by
  have short : ∀ d ∈ datagrams, d.1.length < 65536 := by
    intro d member
    have le := small d member
    unfold maxDatagramSize at le
    omega
  constructor
  · intro received
    exact fit_of_received short (congrArg Prod.fst received)
  · intro fit
    have all : ∀ d ∈ datagrams, Delimits (recvFrom socks maxDatagramSize) (sendTo socks) .whole d :=
      fun d member => recvFrom_delimits (fit d member) (short d member)
    have last : recvFrom socks maxDatagramSize [] = (.closed, []) := by
      rw [recvFrom, ended]
      exact if_pos eof
    have received := readMany_flatten all []
    rw [List.append_nil] at received
    rw [readMany_add, received]
    simp only [readMany, last]

theorem datagrams_round_trip_two :
    readMany (recvFrom Addr.socks5 maxDatagramSize) 3
        ([([1, 2, 3], .v4 16843009 53), ([], .v6 0 1 53)].map (sendTo Addr.socks5)).flatten =
      ([.datagram [1, 2, 3] (.v4 16843009 53), .datagram [] (.v6 0 1 53), .closed], []) :=
  (datagrams_round_trip_iff Addr.socks5 earlyEof rfl rfl [([1, 2, 3], .v4 16843009 53), ([], .v6 0 1 53)]
    (by decide)).mpr (by decide)

/-- A datagram of `MAX_DATAGRAM_SIZE` bytes fails the assertion of `recv_from`. -/
theorem largest_datagram_panics :
    (List.replicate maxDatagramSize (0 : UInt8)).length ≤ maxDatagramSize ∧
    (recvFrom Addr.socks5 maxDatagramSize
      (sendTo Addr.socks5 (List.replicate maxDatagramSize 0, .v4 16843009 53))).1 = .panicked := by
  have length : (List.replicate maxDatagramSize (0 : UInt8)).length = maxDatagramSize := List.length_replicate
  refine ⟨Nat.le_of_eq length, ?_⟩
  rw [← List.append_nil (sendTo Addr.socks5 _)]
  apply recvFrom_panics
  · exact Nat.le_of_eq length.symm
  · rw [length]
    decide

end NoisyShuttle.Shuttle
