import NoisyShuttle.Shuttle.Relay

/-!
# Falling back to the one-shot tunnel

`relay_tcp_remote` tries a reusable session first and starts a one-shot tunnel with the saved
`outbuf` whenever `relay_tcp_reusable` returns an error. An attempt is a function of its script:
what the pool, the session and the inbound client answer at each point.
-/

namespace NoisyShuttle.Shuttle
open Session
open Tunnel (IoError)

def maxFirstPacketSize : Nat := 8192

inductive Attempt (α : Type) where
  | ok (value : α)
  | failed (err : RelayError)
  | panicked

/-! ## The Trojan header in `outbuf` -/

def truncatedHeader : RelayError := .message "truncated trojan header"

def unsupportedAtyp (atyp : UInt8) : RelayError := .code "unsupported address type in trojan request: " atyp

def openRequestAt (outbuf : Bytes) (cmd atyp : UInt8) (addrStart addrEnd portStart : Nat) : Attempt Frame :=
  match outbuf.drop portStart with
  | hi :: lo :: _ =>
    .ok (.openRequest cmd atyp ((outbuf.take addrEnd).drop addrStart) (UInt16.ofNat (ofBe16 hi lo)))
  | _ => .failed (.message "truncated trojan request header")

def openRequestFromTrojanHeader : Option Bytes → Attempt Frame
  -- the first bytes are indexed without a check
  | none => .failed (.message "reusable tcp relay requires an encoded trojan request")
  | some outbuf =>
    match outbuf with
    | cmd :: atyp :: rest =>
      if atyp = 0x01 then openRequestAt outbuf cmd atyp 2 6 6
      else if atyp = 0x04 then openRequestAt outbuf cmd atyp 2 18 18
      else if atyp = 0x03 then
        match rest with
        | len :: _ => openRequestAt outbuf cmd atyp 3 (3 + len.toNat) (3 + len.toNat)
        | [] => .panicked
      else .failed (unsupportedAtyp atyp)
    | _ => .panicked

def trojanAddrLen (atyp third : UInt8) : Except RelayError Nat :=
  if atyp = 0x01 then .ok 4
  else if atyp = 0x04 then .ok 16
  else if atyp = 0x03 then .ok (third.toNat + 1)
  else .error (unsupportedAtyp atyp)

def trojanHeaderLen (outbuf : Bytes) : Except RelayError Nat :=
  match outbuf with
  | _ :: atyp :: third :: _ :: _ =>
    match trojanAddrLen atyp third with
    | .error err => .error err
    | .ok addrLen =>
      let len := 1 + 1 + addrLen + 2 + 2
      if outbuf.length ≥ len then .ok len else .error truncatedHeader
  | _ => .error truncatedHeader

/-! ## The reusable attempt -/

/-- A write that goes through, or fails when `n` bytes are out. -/
inductive Written where
  | all
  | cut (n : Nat) (err : IoError)
  deriving DecidableEq

/-- What was read from inbound, written to inbound, and sent in `Data` frames. -/
structure Exchanged where
  consumed : Bytes
  delivered : Bytes
  data : List Bytes
  deriving DecidableEq

namespace Exchanged

def nothing : Exchanged := ⟨[], [], []⟩

def append (first second : Exchanged) : Exchanged :=
  ⟨first.consumed ++ second.consumed, first.delivered ++ second.delivered, first.data ++ second.data⟩

theorem eq_nothing_iff {e : Exchanged} : e = nothing ↔ e.consumed = [] ∧ e.delivered = [] ∧ e.data = [] := by
  cases e
  simp [nothing]

@[simp] theorem append_eq_nothing {first second : Exchanged} :
    first.append second = nothing ↔ first = nothing ∧ second = nothing := by
  simp only [eq_nothing_iff, append, List.append_eq_nil_iff]
  tauto

end Exchanged

/-- What wakes the loop of `relay_tcp_frames`; its buffer holds 16 KiB. -/
inductive RelayWake where
  | inbound (read : Except IoError Bytes)
  | frame (result : Except FrameError Frame)
  deriving DecidableEq

namespace ClientRelay

def branch (s : ClientRelay) : RelayWake → Option (Branch ClientRelay)
  | .inbound read =>
    if s.clientClosed ∨ 16 * 1024 < (read.toOption.getD []).length then none else some (s.inboundRead read)
  | .frame result => some (s.frameRead result)

/-- Where a branch leads once its write is done: on with the loop, or out of it with a result. -/
def after (written : Written) : Branch ClientRelay → Except (Except RelayError (Nat × Nat)) ClientRelay
  | .send _ next =>
    match written with
    | .all => .ok next
    | .cut _ err => .error (.error (.frame (.io err)))
  | .deliver _ next =>
    match written with
    | .all => .ok next
    | .cut _ err => .error (.error (.io "failed to write framed server data to inbound client" err))
  | .halfClose next | .proceed next => .ok next
  | .finish result => .error result

end ClientRelay

def RelayWake.consumed : RelayWake → Bytes
  | .inbound (.ok bytes) => bytes
  | _ => []

def Written.part (bytes : Bytes) : Written → Bytes
  | .all => bytes
  | .cut n _ => bytes.take n

def RelayWake.exchanged (wake : RelayWake) (branch : Branch ClientRelay) (written : Written) : Exchanged where
  consumed := wake.consumed
  delivered :=
    match branch with
    | .deliver bytes _ => written.part bytes
    | _ => []
  data :=
    match branch, written with
    | .send (.data bytes) _, .all => [bytes]
    | _, _ => []

def relayLoop (s : ClientRelay) :
    List (RelayWake × Written) → Option (Except RelayError (Nat × Nat) × Exchanged)
  | [] => none
  | (wake, written) :: rest =>
    match s.branch wake with
    | none => none
    | some branch =>
      match ClientRelay.after written branch with
      | .ok next =>
        (relayLoop next rest).map fun (result, later) => (result, (wake.exchanged branch written).append later)
      | .error result => if rest = [] then some (result, wake.exchanged branch written) else none

structure Script where
  /-- The reuse count of the session, when the checkout succeeds. -/
  checkout : Option Nat
  negotiation : Except NegotiationError NegotiatedCapabilities
  openWritten : Written
  /-- The first read; `none` is the timeout. -/
  firstRead : Option (Except IoError Bytes)
  firstWritten : Written
  steps : List (RelayWake × Written)

def Script.firstBytes (script : Script) (outbuf : Bytes) : Bytes :=
  -- what the first read adds to `outbuf`: its errors are ignored
  if outbuf.length < maxFirstPacketSize then
    match script.firstRead with
    | some (.ok bytes) => bytes.take (maxFirstPacketSize - outbuf.length)
    | _ => []
  else []

/-- The payload of the `Data` frame that `relay_tcp_frames` writes before its loop, if there is any. -/
def Script.firstData (script : Script) (outbuf : Bytes) : Attempt (Option Bytes) :=
  match trojanHeaderLen outbuf with
  | .error err => .failed err
  | .ok headerLen =>
    let data := (outbuf ++ script.firstBytes outbuf).drop headerLen
    if data = [] then .ok none else if (Frame.data data).Sized then .ok (some data) else .panicked

/-- `relay_tcp_frames`; `none` while it runs, and when encoding a frame panics. -/
def relayTcpFrames (script : Script) (outbuf : Bytes) : Option (Except RelayError (Nat × Nat) × Exchanged) :=
  let first := script.firstBytes outbuf
  match script.firstData outbuf with
  | .failed err => some (.error err, .nothing)
  | .panicked => none
  | .ok none => relayLoop ⟨false, 0, 0⟩ script.steps |>.map fun (result, later) =>
    (result, Exchanged.append ⟨first, [], []⟩ later)
  | .ok (some data) =>
    match script.firstWritten with
    | .cut _ err => some (.error (.frame (.io err)), ⟨first, [], []⟩)
    | .all => relayLoop ⟨false, data.length, 0⟩ script.steps |>.map fun (result, later) =>
      (result, Exchanged.append ⟨first, [], [data]⟩ later)

def Script.negotiated (script : Script) : Except RelayError Unit :=
  match script.checkout with
  | none => .error (.message "failed to checkout reusable session")
  | some 0 =>
    match script.negotiation with
    | .ok caps =>
      if caps.reuse then .ok () else .error (.negotiation "server negotiated without reuse capability: " (.ok caps))
    | .error err => .error (.negotiation "reusable session negotiation failed: " (.error err))
  | some _ => .ok ()

def relayTcpReusable (script : Script) (outbuf : Option Bytes) :
    Option (Except RelayError (Nat × Nat) × Exchanged) :=
  match script.negotiated with
  | .error err => some (.error err, .nothing)
  | .ok () =>
    match openRequestFromTrojanHeader outbuf, outbuf with
    | .failed err, _ => some (.error err, .nothing)
    | .ok _, some outbuf =>
      match script.openWritten with
      | .cut _ err => some (.error (.frame (.io err)), .nothing)
      | .all => relayTcpFrames script outbuf
    | _, _ => none

/-- What the one-shot tunnel carries of `outbuf` and of the bytes inbound has left, in
`relay_tcp_with`: the size of `outbuf` is subtracted from that of the first packet. -/
def relayTcpWith (outbuf : Option Bytes) (inbound : Bytes) : Option Bytes :=
  match outbuf with
  | some outbuf => if outbuf.length ≤ maxFirstPacketSize then some (outbuf ++ inbound) else none
  | none => some inbound

/-- The reusable attempt, and what the one-shot tunnel carries when it is started; `left` are the
bytes of inbound the attempt did not read. -/
structure RemoteRun where
  exchanged : Exchanged
  oneShot : Option Bytes
  deriving DecidableEq

def relayTcpRemote (script : Script) (outbuf : Option Bytes) (left : Bytes) : Option RemoteRun :=
  match relayTcpReusable script outbuf with
  | some (.ok _, exchanged) => some ⟨exchanged, none⟩
  | some (.error _, exchanged) => (relayTcpWith outbuf left).map fun stream => ⟨exchanged, some stream⟩
  | none => none

/-! ## When the one-shot tunnel repeats nothing -/

def RelayWake.quiet (written : Written) : RelayWake → Bool
  | .inbound (.ok bytes) => bytes = []
  | .frame (.ok (.data bytes)) => written.part bytes = []
  | _ => true

/-- The buffer and the header length with which the attempt comes to the first read, if it does. -/
def Script.reaches (script : Script) (outbuf : Option Bytes) : Option (Bytes × Nat) :=
  match script.negotiated, openRequestFromTrojanHeader outbuf, outbuf, script.openWritten with
  | .ok (), .ok _, some buf, .all => (trojanHeaderLen buf).toOption.map (buf, ·)
  | _, _, _, _ => none

/-- The attempt ends before the first read; or the read brings nothing and then the write of the
payload in `outbuf` fails, or there is none and no step moves payload. -/
def Script.FailedBeforePayload (script : Script) (outbuf : Option Bytes) : Prop :=
  match script.reaches outbuf with
  | none => True
  | some (buf, headerLen) => script.firstBytes buf = [] ∧
    if buf.drop headerLen = [] then ∀ step ∈ script.steps, step.1.quiet step.2 = true
    else script.firstWritten ≠ .all

theorem exchanged_eq_nothing {s : ClientRelay} {wake : RelayWake} {branch : Branch ClientRelay} {written : Written}
    (h : s.branch wake = some branch) :
    wake.exchanged branch written = .nothing ↔ wake.quiet written = true := by
  cases wake with
  | inbound read =>
    have branch : branch = s.inboundRead read := by
      simp only [ClientRelay.branch] at h
      split at h
      · cases h
      · exact (Option.some.inj h).symm
    subst branch
    rcases read with err | (_ | ⟨byte, more⟩)
    · simp [RelayWake.exchanged, RelayWake.consumed, RelayWake.quiet, ClientRelay.inboundRead, Exchanged.nothing]
    · simp [RelayWake.exchanged, RelayWake.consumed, RelayWake.quiet, ClientRelay.inboundRead, Exchanged.nothing]
    · simp [RelayWake.exchanged, RelayWake.consumed, RelayWake.quiet, Exchanged.nothing]
  | frame result =>
    cases h
    rcases result with err | frame
    · simp [RelayWake.exchanged, RelayWake.consumed, RelayWake.quiet, ClientRelay.frameRead, Exchanged.nothing]
    · cases frame <;>
        simp [RelayWake.exchanged, RelayWake.consumed, RelayWake.quiet, ClientRelay.frameRead, Exchanged.nothing]

theorem relayLoop_nothing {s : ClientRelay} {steps : List (RelayWake × Written)}
    {result : Except RelayError (Nat × Nat)} {exchanged : Exchanged}
    (h : relayLoop s steps = some (result, exchanged)) :
    exchanged = .nothing ↔ ∀ step ∈ steps, step.1.quiet step.2 = true := by
  induction steps generalizing s result exchanged with
  | nil => cases h
  | cons step rest ih =>
    obtain ⟨wake, written⟩ := step
    unfold relayLoop at h
    split at h
    · cases h
    · next branch woken =>
      rw [List.forall_mem_cons, ← exchanged_eq_nothing woken]
      split at h
      · next next _ =>
        obtain ⟨⟨result', later⟩, looped, eq⟩ := Option.map_eq_some_iff.mp h
        cases eq
        rw [Exchanged.append_eq_nothing, ih looped]
      · next result' _ =>
        split at h
        · next last =>
          cases h
          simp [last]
        · cases h

theorem trojanHeaderLen_le {outbuf : Bytes} {headerLen : Nat} (h : trojanHeaderLen outbuf = .ok headerLen) :
    headerLen ≤ outbuf.length := by
  unfold trojanHeaderLen at h
  split at h
  · split at h
    · cases h
    · dsimp only at h
      split at h
      · next fits =>
        cases h
        exact fits
      · cases h
  · cases h

theorem Script.firstData_eq {script : Script} {outbuf : Bytes} {headerLen : Nat}
    (header : trojanHeaderLen outbuf = .ok headerLen) :
    script.firstData outbuf =
      if outbuf.drop headerLen ++ script.firstBytes outbuf = [] then .ok none
      else if (Frame.data (outbuf.drop headerLen ++ script.firstBytes outbuf)).Sized then
        .ok (some (outbuf.drop headerLen ++ script.firstBytes outbuf))
      else .panicked := by
  unfold Script.firstData
  rw [header]
  dsimp only
  rw [List.drop_append_of_le_length (trojanHeaderLen_le header)]

theorem relayTcpFrames_nothing {script : Script} {outbuf : Bytes} {headerLen : Nat}
    {result : Except RelayError (Nat × Nat)} {exchanged : Exchanged}
    (header : trojanHeaderLen outbuf = .ok headerLen)
    (h : relayTcpFrames script outbuf = some (result, exchanged)) :
    exchanged = .nothing ↔ script.firstBytes outbuf = [] ∧
      if outbuf.drop headerLen = [] then ∀ step ∈ script.steps, step.1.quiet step.2 = true
      else script.firstWritten ≠ .all := by
  unfold relayTcpFrames at h
  rw [Script.firstData_eq header] at h
  by_cases none : outbuf.drop headerLen ++ script.firstBytes outbuf = []
  · rw [if_pos none] at h
    obtain ⟨payload, first⟩ := List.append_eq_nil_iff.mp none
    obtain ⟨⟨result', later⟩, looped, eq⟩ := Option.map_eq_some_iff.mp h
    cases eq
    rw [if_pos payload, first, Exchanged.append_eq_nothing, relayLoop_nothing looped]
    simp [Exchanged.nothing]
  · have payload (first : script.firstBytes outbuf = []) : outbuf.drop headerLen ≠ [] := by
      rwa [first, List.append_nil] at none
    rw [if_neg none] at h
    by_cases sized : (Frame.data (outbuf.drop headerLen ++ script.firstBytes outbuf)).Sized
    · rw [if_pos sized] at h
      dsimp only at h
      split at h
      · next failed =>
        cases h
        constructor
        · intro nothing
          have first := congrArg Exchanged.consumed nothing
          exact ⟨first, by rw [if_neg (payload first), failed]; simp⟩
        · rintro ⟨first, -⟩
          simp only [first, Exchanged.nothing]
      · next written =>
        obtain ⟨⟨result', later⟩, looped, eq⟩ := Option.map_eq_some_iff.mp h
        cases eq
        constructor
        · intro nothing
          cases congrArg Exchanged.data (Exchanged.append_eq_nothing.mp nothing).1
        · rintro ⟨first, failed⟩
          rw [if_neg (payload first)] at failed
          exact absurd written failed
    · rw [if_neg sized] at h
      cases h

theorem relayTcpReusable_nothing {script : Script} {outbuf : Option Bytes} {result : Except RelayError (Nat × Nat)}
    {exchanged : Exchanged} (h : relayTcpReusable script outbuf = some (result, exchanged)) :
    exchanged = .nothing ↔ script.FailedBeforePayload outbuf := by
  unfold relayTcpReusable at h
  unfold Script.FailedBeforePayload Script.reaches
  split at h
  · next err failed =>
    cases h
    simp [failed]
  · next negotiated =>
    split at h
    · next err failed =>
      cases h
      simp [failed]
    · next frame buf opened =>
      split at h
      · next failed =>
        cases h
        simp [failed]
      · next written =>
        cases header : trojanHeaderLen buf with
        | error err =>
          rw [relayTcpFrames, Script.firstData, header] at h
          cases h
          simp [negotiated, opened, written, header, Except.toOption]
        | ok headerLen =>
          rw [relayTcpFrames_nothing header h]
          simp [negotiated, opened, written, header, Except.toOption]
    · cases h

/-- The reusable attempt has moved nothing when the one-shot tunnel is started, and so the tunnel
carries the whole payload, exactly when the attempt failed before payload. -/
theorem one_shot_repeats_nothing_iff {script : Script} {outbuf : Option Bytes} {left stream : Bytes}
    {exchanged : Exchanged} (h : relayTcpRemote script outbuf left = some ⟨exchanged, some stream⟩) :
    ((exchanged.consumed = [] ∧ exchanged.delivered = [] ∧ exchanged.data = []) ∧
      stream = outbuf.getD [] ++ (exchanged.consumed ++ left)) ↔ script.FailedBeforePayload outbuf := by
  unfold relayTcpRemote at h
  split at h
  · cases h
  · next err exchanged' attempted =>
    obtain ⟨stream', carried, eq⟩ := Option.map_eq_some_iff.mp h
    cases eq
    rw [← relayTcpReusable_nothing attempted, ← Exchanged.eq_nothing_iff]
    have whole : stream = outbuf.getD [] ++ left := by
      unfold relayTcpWith at carried
      split at carried
      · split at carried
        · exact (Option.some.inj carried).symm
        · cases carried
      · exact (Option.some.inj carried).symm
    constructor
    · exact And.left
    · intro nothing
      rw [nothing]
      exact ⟨rfl, whole⟩
  · cases h

def connectHeader : Bytes := [0x01, 0x01, 0x7f, 0x00, 0x00, 0x01, 0x00, 0x50, 0x0d, 0x0a]

def unansweredScript : Script := ⟨some 0, .error .noResponse, .all, none, .all, []⟩

theorem one_shot_after_unanswered :
    ∃ exchanged stream,
      relayTcpRemote unansweredScript (some connectHeader) [0x47, 0x45, 0x54] = some ⟨exchanged, some stream⟩ ∧
      exchanged.data = [] ∧ stream = connectHeader ++ (exchanged.consumed ++ [0x47, 0x45, 0x54]) := by
  have ran : relayTcpRemote unansweredScript (some connectHeader) [0x47, 0x45, 0x54] =
      some ⟨.nothing, some (connectHeader ++ [0x47, 0x45, 0x54])⟩ := by decide +kernel
  obtain ⟨⟨_, _, data⟩, whole⟩ := (one_shot_repeats_nothing_iff ran).mpr trivial
  exact ⟨_, _, ran, data, whole⟩

def resetScript : Script :=
  ⟨some 1, .error .noResponse, .all, some (.ok [0x47, 0x45, 0x54]), .all, [(.frame (.ok (.reset 0x02)), .all)]⟩

/-- The three bytes went out in a `Data` frame and are missing from the one-shot tunnel. -/
theorem one_shot_loses_first_packet :
    relayTcpRemote resetScript (some connectHeader) [0x20] =
        some ⟨⟨[0x47, 0x45, 0x54], [], [[0x47, 0x45, 0x54]]⟩, some (connectHeader ++ [0x20])⟩ ∧
      connectHeader ++ [0x20] ≠ connectHeader ++ ([0x47, 0x45, 0x54] ++ [0x20]) := by
  decide +kernel

end NoisyShuttle.Shuttle
