import NoisyShuttle.Session.Frame
import NoisyShuttle.Tunnel.Integrity

/-!
# Writing a frame to the encrypted stream

`write_frame` is `write_all` of the encoded frame: calls of `poll_write` until every byte has been
accepted. Accepted bytes may still be in the stream's own buffer.
-/

namespace NoisyShuttle.Session
open Tunnel

/-- The future of `write_frame` between two calls of `poll_write`. -/
inductive WriteFrame where
  | writing (stream : SnowyStream) (rest : Bytes)
  | returned (result : Except FrameError Unit) (stream : SnowyStream)
  | panicked

def acceptedNothing : IoError := ⟨.writeZero, "write zero"⟩

def writeFrame (stream : SnowyStream) (frame : Frame) : WriteFrame :=
  match frame.encode with
  | .ok buf => .writing stream buf
  | .error _ => .panicked

/-- One call of `poll_write`, with the socket's answers to it. -/
def WriteFrame.step (noise : Noise) : WriteFrame → List WriteOutcome → Option WriteFrame
  | .writing stream rest, outcomes =>
    match stream.pollWrite noise rest outcomes with
    | (.pending, stream, _) => some (.writing stream rest)
    | (.panicked, _, _) => some .panicked
    | (.ready (.error err), stream, _) => some (.returned (.error (.io err)) stream)
    | (.ready (.ok n), stream, _) =>
      if n = 0 then some (.returned (.error (.io acceptedNothing)) stream)
      else if n < rest.length then some (.writing stream (rest.drop n))
      else some (.returned (.ok ()) stream)
  | _, _ => none

/-! ## The socket's answers to records of given sizes -/

inductive Taken where
  | all (left : List WriteOutcome)
  | blocked
  | failed
  deriving DecidableEq

/-- Whether the answers take `size` bytes, and which of them are left then. -/
def taking : Nat → List WriteOutcome → Taken
  | 0, outcomes => .all outcomes
  | _ + 1, [] => .blocked
  | _ + 1, .pending :: _ => .blocked
  | _ + 1, .failed _ :: _ => .failed
  | size + 1, .wrote n :: rest => if n = 0 then .failed else taking (size + 1 - n) rest

/-- In one call the socket comes to the last of the records and is not ready to take all of it. -/
def blocksAtLast : List Nat → List WriteOutcome → Bool
  | [], _ => false
  | [size], outcomes => taking size outcomes = .blocked
  | size :: later, outcomes =>
    match taking size outcomes with
    | .all left => blocksAtLast later left
    | _ => false

/-- The sizes of the records that `len` bytes are sealed in. -/
def recordSizes (len : Nat) : List Nat :=
  if _more : 0 < len then
    (tlsRecordHeaderLength + (min len maximumPlaintextLength + aeadTagLength)) ::
      recordSizes (len - maximumPlaintextLength)
  else []
  termination_by len
  decreasing_by
    have : 0 < maximumPlaintextLength := by decide
    omega

/-- The length that `poll_write` asserts of a message. -/
def TagLength (noise : Noise) : Prop :=
  ∀ nonce plaintext ciphertext, noise.writeMessage nonce plaintext = some ciphertext →
    ciphertext.length = plaintext.length + aeadTagLength

def WriteFrame.blocksAtLast : WriteFrame → List WriteOutcome → Bool
  | .writing stream rest, outcomes => Session.blocksAtLast (stream.unsent.length :: recordSizes rest.length) outcomes
  | _, _ => false

theorem taking_pos {size : Nat} (positive : 0 < size) (outcomes : List WriteOutcome) :
    taking size outcomes =
      match outcomes with
      | [] | .pending :: _ => .blocked
      | .failed _ :: _ => .failed
      | .wrote n :: rest => if n = 0 then .failed else taking (size - n) rest := by
  obtain ⟨n, rfl⟩ := Nat.exists_eq_succ_of_ne_zero (Nat.pos_iff_ne_zero.mp positive)
  cases outcomes with
  | nil => rfl
  | cons outcome rest => cases outcome <;> rfl

theorem unsent_length (s : SnowyStream) : s.unsent.length = s.writeBuffer.length - s.writeOffset := List.length_drop

/-- The loop that cleans the buffer does what the sizes say. -/
theorem drainWriteBuffer_taking (s : SnowyStream) (outcomes : List WriteOutcome) :
    ((s.drainWriteBuffer true outcomes).exit = .drained ∧
        taking s.unsent.length outcomes = .all (s.drainWriteBuffer true outcomes).outcomes) ∨
      ((s.drainWriteBuffer true outcomes).exit = .blocked ∧ taking s.unsent.length outcomes = .blocked ∧
        (s.drainWriteBuffer true outcomes).stream.unsent ≠ []) ∨
      ∃ err, (s.drainWriteBuffer true outcomes).exit = .failed err ∧ taking s.unsent.length outcomes = .failed := by
  induction outcomes generalizing s with
  | nil =>
    unfold SnowyStream.drainWriteBuffer
    dsimp only
    split
    · next more =>
      have positive : 0 < s.unsent.length := by rw [unsent_length]; omega
      exact .inr (.inl ⟨rfl, taking_pos positive [], List.length_pos_iff.mp positive⟩)
    · next none =>
      rw [unsent_eq_nil none]
      exact .inl ⟨rfl, rfl⟩
  | cons outcome rest ih =>
    unfold SnowyStream.drainWriteBuffer
    split
    · next more =>
      have positive : 0 < s.unsent.length := by rw [unsent_length]; omega
      have unsent : s.unsent ≠ [] := List.length_pos_iff.mp positive
      rw [taking_pos positive]
      cases outcome with
      | pending => exact .inr (.inl ⟨rfl, rfl, unsent⟩)
      | failed err => exact .inr (.inr ⟨err, rfl, rfl⟩)
      | wrote n =>
        dsimp only
        by_cases zero : n = 0
        · rw [zero, if_pos rfl]
          exact .inr (.inr ⟨writeZero, rfl, rfl⟩)
        · have taken : ¬ (s.unsent.take n = [] ∧ true = true) := by
            rintro ⟨none, -⟩
            rcases List.take_eq_nil_iff.mp none with none | none
            · exact zero none
            · exact unsent none
          have left : { s with writeOffset := s.writeOffset + (s.unsent.take n).length }.unsent.length =
              s.unsent.length - n := by
            rw [unsent_length, unsent_length, List.length_take, unsent_length]
            dsimp only
            omega
          have later := ih { s with writeOffset := s.writeOffset + (s.unsent.take n).length }
          rw [left] at later
          rw [if_neg zero, if_neg taken]
          exact later
    · next none =>
      rw [unsent_eq_nil none]
      exact .inl ⟨rfl, rfl⟩

theorem taking_of_drained {s : SnowyStream} {outcomes : List WriteOutcome}
    (drained : (s.drainWriteBuffer true outcomes).exit = .drained) :
    taking s.unsent.length outcomes = .all (s.drainWriteBuffer true outcomes).outcomes := by
  rcases drainWriteBuffer_taking s outcomes with ⟨-, taken⟩ | ⟨blocked, -⟩ | ⟨err, failed, -⟩
  · exact taken
  · cases drained.symm.trans blocked
  · cases drained.symm.trans failed

theorem taking_of_blocked {s : SnowyStream} {outcomes : List WriteOutcome}
    (blocked : (s.drainWriteBuffer true outcomes).exit = .blocked) :
    taking s.unsent.length outcomes = .blocked ∧ (s.drainWriteBuffer true outcomes).stream.unsent ≠ [] := by
  rcases drainWriteBuffer_taking s outcomes with ⟨drained, -⟩ | ⟨-, taken⟩ | ⟨err, failed, -⟩
  · cases blocked.symm.trans drained
  · exact taken
  · cases blocked.symm.trans failed

theorem recordSizes_pos {len : Nat} (more : 0 < len) :
    recordSizes len = (tlsRecordHeaderLength + (min len maximumPlaintextLength + aeadTagLength)) ::
      recordSizes (len - maximumPlaintextLength) := by
  rw [recordSizes, dif_pos more]

theorem recordSizes_zero : recordSizes 0 = [] := by
  rw [recordSizes, dif_neg (Nat.lt_irrefl 0)]

theorem record_length (c : Bytes) : (record c).length = tlsRecordHeaderLength + c.length := by
  simp only [record, tlsRecordHeaderLength, List.length_append, List.length_cons, List.length_nil, be16_length]

/-- What a call of `poll_write` leaves unsent, if it returns. -/
structure Left (s t : SnowyStream) (offset len accepted : Nat) (outcomes : List WriteOutcome) : Prop where
  bounded : accepted ≤ offset + len
  whole : accepted = offset + len →
    (t.unsent = [] ↔ blocksAtLast (s.unsent.length :: recordSizes len) outcomes = false)
  part : accepted < offset + len → blocksAtLast (s.unsent.length :: recordSizes len) outcomes = false

theorem blocksAtLast_cons (size next : Nat) (later : List Nat) (outcomes : List WriteOutcome) :
    blocksAtLast (size :: next :: later) outcomes =
      match taking size outcomes with
      | .all left => blocksAtLast (next :: later) left
      | _ => false := by
  rw [blocksAtLast]
  nofun

theorem writeLoop_left {noise : Noise} (tag : TagLength noise) (rest : Bytes) (offset : Nat) (s : SnowyStream)
    (outcomes : List WriteOutcome) {t : SnowyStream} {emitted : Bytes} {accepted : Nat}
    (h : SnowyStream.writeLoop noise rest offset s outcomes = (.ready (.ok accepted), t, emitted)) :
    Left s t offset rest.length accepted outcomes := by
  fun_induction SnowyStream.writeLoop noise rest offset s outcomes generalizing t emitted accepted with
  | case1 => cases h
  | case2 rest offset s outcomes pushed =>
    rename_i blocked
    obtain ⟨taken, unsent⟩ : _ ∧ pushed.stream.unsent ≠ [] := taking_of_blocked blocked
    obtain ⟨rfl, rfl⟩ : offset = accepted ∧ pushed.stream = t := by
      split at h
      · cases h
      · cases h
        exact ⟨rfl, rfl⟩
    refine ⟨Nat.le_add_right _ _, ?_, ?_⟩
    · intro all
      have none : rest.length = 0 := by omega
      rw [none, recordSizes_zero, blocksAtLast, taken]
      simp [unsent]
    · intro more
      rw [recordSizes_pos (by omega), blocksAtLast_cons, taken]
  | case3 offset s outcomes pushed =>
    rename_i drained cleared
    have taken := taking_of_drained drained
    cases h
    have empty : cleared.unsent = [] := rfl
    refine ⟨Nat.le_refl _, ?_, ?_⟩
    · intro _
      rw [List.length_nil, recordSizes_zero, blocksAtLast, taken]
      simp [empty]
    · intro more
      exact absurd more (Nat.lt_irrefl _)
  | case4 => cases h
  | case5 rest offset s outcomes pushed drained cleared more chunk c wrote framed poll s₁ =>
    rename_i emitted₁ next ih
    have taken := taking_of_drained drained
    cases h
    obtain ⟨bounded, whole, part⟩ := ih next
    have positive : 0 < rest.length := List.length_pos_iff.mpr more
    have sealedSize : framed.unsent.length =
        tlsRecordHeaderLength + (min rest.length maximumPlaintextLength + aeadTagLength) := by
      have size := record_length c
      rw [tag _ _ _ wrote, List.length_take, Nat.min_comm] at size
      exact size
    have sizes : blocksAtLast (s.unsent.length :: recordSizes rest.length) outcomes =
        blocksAtLast (framed.unsent.length :: recordSizes (rest.drop maximumPlaintextLength).length)
          pushed.outcomes := by
      rw [recordSizes_pos positive, blocksAtLast_cons, taken, sealedSize, List.length_drop]
    have total : offset + chunk.length + (rest.drop maximumPlaintextLength).length = offset + rest.length := by
      rw [List.length_take, List.length_drop]
      omega
    rw [total] at bounded whole part
    refine ⟨bounded, ?_, ?_⟩
    · rw [sizes]
      exact whole
    · rw [sizes]
      exact part

theorem writeLoop_pending {noise : Noise} (rest : Bytes) (offset : Nat) (s : SnowyStream)
    (outcomes : List WriteOutcome) {t : SnowyStream} {emitted : Bytes}
    (h : SnowyStream.writeLoop noise rest offset s outcomes = (.pending, t, emitted)) :
    offset = 0 ∧ taking s.unsent.length outcomes = .blocked := by
  fun_induction SnowyStream.writeLoop noise rest offset s outcomes generalizing t emitted with
  | case1 => cases h
  | case2 rest offset s outcomes pushed =>
    rename_i blocked
    have taken := (taking_of_blocked blocked).1
    split at h
    · next first => exact ⟨first, taken⟩
    · cases h
  | case3 => cases h
  | case4 => cases h
  | case5 rest offset s outcomes pushed drained cleared more chunk c wrote framed poll s₁ =>
    rename_i emitted₁ next ih
    cases h
    obtain ⟨first, -⟩ := ih next
    have positive : 0 < chunk.length := List.length_pos_iff.mpr (isChunk_take more).1
    omega

theorem pollWrite_left {noise : Noise} (tag : TagLength noise) {s t : SnowyStream} {rest emitted : Bytes} {n : Nat}
    {outcomes : List WriteOutcome} (positive : n ≠ 0)
    (h : s.pollWrite noise rest outcomes = (.ready (.ok n), t, emitted)) : Left s t 0 rest.length n outcomes := by
  unfold SnowyStream.pollWrite at h
  split at h
  · exact writeLoop_left tag rest 0 s outcomes h
  · cases h
    exact absurd rfl positive

theorem pollWrite_pending {noise : Noise} {s t : SnowyStream} {rest emitted : Bytes} {outcomes : List WriteOutcome}
    (h : s.pollWrite noise rest outcomes = (.pending, t, emitted)) :
    taking s.unsent.length outcomes = .blocked := by
  unfold SnowyStream.pollWrite at h
  split at h
  · exact (writeLoop_pending rest 0 s outcomes h).2
  · cases h

/-- A call that does not finish the frame has not come to its last record. -/
theorem step_writing {noise : Noise} (tag : TagLength noise) {s t : SnowyStream} {rest later : Bytes}
    {outcomes : List WriteOutcome} (more : rest ≠ [])
    (h : (WriteFrame.writing s rest).step noise outcomes = some (.writing t later)) :
    later ≠ [] ∧ (WriteFrame.writing s rest).blocksAtLast outcomes = false := by
  unfold WriteFrame.step at h
  dsimp only at h
  split at h
  · next mid emitted polled =>
    cases h
    refine ⟨more, ?_⟩
    unfold WriteFrame.blocksAtLast
    dsimp only
    rw [recordSizes_pos (List.length_pos_iff.mpr more), blocksAtLast_cons, pollWrite_pending polled]
  · cases h
  · cases h
  · next n mid emitted polled =>
    split at h
    · cases h
    · next positive =>
      split at h
      · next part =>
        cases h
        refine ⟨?_, (pollWrite_left tag positive polled).part (by omega)⟩
        apply List.length_pos_iff.mp
        rw [List.length_drop]
        omega
      · cases h

theorem step_returned {noise : Noise} (tag : TagLength noise) {s t : SnowyStream} {rest : Bytes}
    {outcomes : List WriteOutcome}
    (h : (WriteFrame.writing s rest).step noise outcomes = some (.returned (.ok ()) t)) :
    t.unsent = [] ↔ (WriteFrame.writing s rest).blocksAtLast outcomes = false := by
  unfold WriteFrame.step at h
  dsimp only at h
  split at h
  · cases h
  · cases h
  · cases h
  · next n mid emitted polled =>
    split at h
    · cases h
    · next positive =>
      split at h
      · cases h
      · next all =>
        cases h
        have left := pollWrite_left tag positive polled
        have bounded := left.bounded
        exact left.whole (by omega)

theorem run_writing {noise : Noise} (tag : TagLength noise) {s t : SnowyStream} {rest : Bytes}
    {calls : List (List WriteOutcome)} (more : rest ≠ [])
    (h : run (WriteFrame.step noise) (.writing s rest) calls = some (.returned (.ok ()) t)) :
    t.unsent = [] ↔
      Guarded (WriteFrame.step noise) (fun w outcomes => w.blocksAtLast outcomes = false) (.writing s rest) calls := by
  induction calls generalizing s rest with
  | nil => cases h
  | cons outcomes calls ih =>
    obtain ⟨next, stepped, h⟩ := run_cons.mp h
    simp only [Guarded, stepped]
    cases next with
    | writing mid later =>
      obtain ⟨still, fine⟩ := step_writing tag more stepped
      rw [and_iff_right fine]
      exact ih still h
    | returned result mid =>
      obtain ⟨rfl, last⟩ := run_stuck (fun _ => rfl) h
      cases last
      rw [step_returned tag stepped]
      exact (and_iff_left trivial).symm
    | panicked =>
      obtain ⟨-, last⟩ := run_stuck (fun _ => rfl) h
      cases last

/-- When `write_frame` returns, everything has been handed to the socket exactly if no call came to the
last record of the frame and found the socket not ready for all of it. -/
theorem written_frame_sent_iff (noise : Noise) (tag : TagLength noise) (s t : SnowyStream) (frame : Frame)
    (calls : List (List WriteOutcome))
    (h : run (WriteFrame.step noise) (writeFrame s frame) calls = some (.returned (.ok ()) t)) :
    t.unsent = [] ↔
      Guarded (WriteFrame.step noise) (fun w outcomes => w.blocksAtLast outcomes = false) (writeFrame s frame)
        calls := by
  unfold writeFrame at h ⊢
  split
  · next buf encoded =>
    rw [encoded] at h
    apply run_writing tag _ h
    unfold Frame.encode at encoded
    dsimp only at encoded
    split at encoded
    · cases encoded
      nofun
    · cases encoded
  · next err oversized =>
    rw [oversized] at h
    obtain ⟨-, last⟩ := run_stuck (fun _ => rfl) h
    cases last

theorem tagLength_plainNoise : TagLength plainNoise := by
  intro nonce plaintext ciphertext sealed
  cases sealed
  rw [List.length_append, List.length_replicate]

/-- What a `write_frame` that returned has left unsent. -/
def WriteFrame.unsent : WriteFrame → Option Bytes
  | .returned (.ok ()) stream => some stream.unsent
  | _ => none

theorem unsent_eq_some {w : WriteFrame} {bytes : Bytes} (h : w.unsent = some bytes) :
    ∃ t, w = .returned (.ok ()) t ∧ t.unsent = bytes := by
  unfold WriteFrame.unsent at h
  split at h
  · exact ⟨_, rfl, Option.some.inj h⟩
  · cases h

theorem written_frame_sent_ready :
    ∃ t, run (WriteFrame.step plainNoise) (writeFrame .new (.endRequest 0)) [[.wrote 3, .wrote 100]] =
        some (.returned (.ok ()) t) ∧ t.unsent = [] := by
  have ran : ((run (WriteFrame.step plainNoise) (writeFrame .new (.endRequest 0)) [[.wrote 3, .wrote 100]]).bind
      WriteFrame.unsent).isSome = true := by decide +kernel
  obtain ⟨bytes, ran⟩ := Option.isSome_iff_exists.mp ran
  obtain ⟨w, ran, left⟩ := Option.bind_eq_some_iff.mp ran
  obtain ⟨t, rfl, -⟩ := unsent_eq_some left
  refine ⟨t, ran, ?_⟩
  exact (written_frame_sent_iff plainNoise tagLength_plainNoise .new t (.endRequest 0) _ ran).mpr (by decide +kernel)

/-- The socket is not ready for the first write: `write_frame` returns and has sent nothing. -/
theorem written_frame_unsent :
    ∃ t, run (WriteFrame.step plainNoise) (writeFrame .new (.endRequest 0)) [[.pending]] =
        some (.returned (.ok ()) t) ∧
      t.unsent = [0x17, 0x03, 0x03, 0, 20, 0x04, 0, 1, 0] ++ List.replicate 16 0 := by
  have ran : (run (WriteFrame.step plainNoise) (writeFrame .new (.endRequest 0)) [[.pending]]).bind
      WriteFrame.unsent = some ([0x17, 0x03, 0x03, 0, 20, 0x04, 0, 1, 0] ++ List.replicate 16 0) := by
    decide +kernel
  obtain ⟨w, ran, left⟩ := Option.bind_eq_some_iff.mp ran
  obtain ⟨t, rfl, unsent⟩ := unsent_eq_some left
  exact ⟨t, ran, unsent⟩

end NoisyShuttle.Session
