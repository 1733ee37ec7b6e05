import NoisyShuttle.Lib.Codec
import NoisyShuttle.Session.Frame

/-!
# The frame format

`encode` and `decode` are inverse to each other, in a stream of frames and on every byte string that
`decode` accepts.
-/

namespace NoisyShuttle.Session
namespace Frame

theorem requireLen_ok {payload : Bytes} {expected : Nat} {frameName : String}
    (h : requireLen payload expected frameName = .ok ()) : payload.length = expected := by
  unfold requireLen at h
  split at h
  · assumption
  · cases h

theorem requireLen_bind {payload : Bytes} {expected : Nat} {frameName : String} {k : Unit → Except FrameError Frame}
    {frame : Frame} (h : (requireLen payload expected frameName >>= k) = .ok frame) :
    payload.length = expected ∧ k () = .ok frame := by
  cases checked : requireLen payload expected frameName with
  | error err =>
    rw [checked] at h
    cases h
  | ok done =>
    rw [checked] at h
    exact ⟨requireLen_ok checked, h⟩

theorem reasonOf_ok {payload : Bytes} {frameName : String} {build : UInt8 → Frame} {frame : Frame}
    (h : reasonOf payload frameName build = .ok frame) : ∃ reason, payload = [reason] ∧ frame = build reason := by
  replace h := (requireLen_bind h).2
  split at h
  · next reason => exact ⟨reason, rfl, (Except.ok.inj h).symm⟩
  · cases h

theorem tokenOf_ok {payload : Bytes} {frameName : String} {build : UInt32 → Frame} {frame : Frame}
    (h : tokenOf payload frameName build = .ok frame) :
    ∃ token : UInt32, payload = be32 token.toNat ∧ frame = build token := by
  replace h := (requireLen_bind h).2
  split at h
  · next b₃ b₂ b₁ b₀ =>
    refine ⟨UInt32.ofNat (ofBe32 b₃ b₂ b₁ b₀), ?_, (Except.ok.inj h).symm⟩
    rw [UInt32.toNat_ofNat_of_lt' (ofBe32_lt b₃ b₂ b₁ b₀), be32_ofBe32]
  · cases h

theorem drop_two_of_reverse {payload before : Bytes} {hi lo : UInt8} (ends : payload.reverse = lo :: hi :: before)
    (long : 4 ≤ payload.length) : payload.drop 2 = (payload.drop 2).take (payload.length - 4) ++ [hi, lo] := by
  have whole : payload = before.reverse ++ [hi, lo] := by
    have twice := congrArg List.reverse ends
    simpa using twice
  have length : before.reverse.length = payload.length - 2 := by
    have total := congrArg List.length whole
    rw [List.length_append] at total
    simp only [List.length_cons, List.length_nil] at total
    omega
  have last : (payload.drop 2).drop (payload.length - 4) = [hi, lo] := by
    rw [List.drop_drop, show 2 + (payload.length - 4) = before.reverse.length by omega]
    conv_lhs => rw [whole]
    exact List.drop_left
  conv_lhs => rw [← List.take_append_drop (payload.length - 4) (payload.drop 2), last]

theorem decodeOpenRequest_ok {payload : Bytes} {frame : Frame} (h : decodeOpenRequest payload = .ok frame) :
    ∃ cmd atyp addr, ∃ port : UInt16,
      payload = cmd :: atyp :: (addr ++ be16 port.toNat) ∧ frame = .openRequest cmd atyp addr port := by
  unfold decodeOpenRequest at h
  split at h
  · next cmd atyp x y more lo hi before ends =>
    have split := drop_two_of_reverse ends (by simp)
    refine ⟨cmd, atyp, _, UInt16.ofNat (ofBe16 hi lo), ?_, (Except.ok.inj h).symm⟩
    rw [UInt16.toNat_ofNat_of_lt' (ofBe16_lt hi lo), be16_ofBe16, ← split]
    rfl
  · cases h

/-- `decode` gives only frames whose payload is the one it read. -/
theorem decodePayload_ok {frameType : UInt8} {payload : Bytes} {frame : Frame}
    (h : decodePayload frameType payload = .ok frame) : frame.payload = (frameType, payload) := by
  unfold decodePayload at h
  split at h
  · next same =>
    replace h := (requireLen_bind h).2
    split at h
    · next version hi lo =>
      cases h
      simp only [Frame.payload, same, Prod.mk.injEq, List.cons.injEq, true_and]
      rw [UInt16.toNat_ofNat_of_lt' (ofBe16_lt hi lo), be16_ofBe16]
    · cases h
  split at h
  · next same =>
    obtain ⟨cmd, atyp, addr, port, rfl, rfl⟩ := decodeOpenRequest_ok h
    rw [same]
    rfl
  split at h
  · next same =>
    cases h
    rw [same]
    rfl
  split at h
  · next same =>
    obtain ⟨reason, rfl, rfl⟩ := reasonOf_ok h
    rw [same]
    rfl
  split at h
  · next same =>
    obtain ⟨reason, rfl, rfl⟩ := reasonOf_ok h
    rw [same]
    rfl
  split at h
  · next same =>
    obtain ⟨token, rfl, rfl⟩ := tokenOf_ok h
    rw [same]
    rfl
  split at h
  · next same =>
    obtain ⟨token, rfl, rfl⟩ := tokenOf_ok h
    rw [same]
    rfl
  split at h
  · next same =>
    obtain ⟨reason, rfl, rfl⟩ := reasonOf_ok h
    rw [same]
    rfl
  · cases h

/-- The length field of an encoded frame, `b[1..3]`. -/
def payloadLen : Bytes → Nat
  | _ :: hi :: lo :: _ => ofBe16 hi lo
  | _ => 0

theorem encode_of_decode {b : Bytes} {frame : Frame} (h : decode b = .ok frame) :
    frame.encode = .ok (b.take (3 + payloadLen b)) := by
  unfold decode at h
  split at h
  · next frameType hi lo rest =>
    split at h
    · next payload left took =>
      obtain ⟨rfl, length⟩ := readExact_eq_some.mp took
      have same := decodePayload_ok h
      have sized : frame.Sized := by
        have short := ofBe16_lt hi lo
        rw [Sized, same, length]
        exact Nat.le_of_lt_succ short
      have taken : (frameType :: hi :: lo :: (payload ++ left)).take (3 + ofBe16 hi lo) =
          frameType :: hi :: lo :: payload := by
        rw [← length, Nat.add_comm]
        simp
      rw [encode_sized sized, payloadLen, taken, bytes, same, length, be16_ofBe16]
      rfl
    · cases h
  · cases h

theorem sized_of_encode {frame : Frame} {b : Bytes} (h : frame.encode = .ok b) : frame.Sized ∧ b = frame.bytes := by
  have sized : frame.Sized := by
    unfold encode at h
    dsimp only at h
    split at h
    · assumption
    · cases h
  rw [encode_sized sized] at h
  exact ⟨sized, (Except.ok.inj h).symm⟩

end Frame

theorem readFrame_delimits {frame : Frame} (sized : frame.Sized) : Delimits readFrame Frame.bytes Except.ok frame :=
  readFrame_bytes sized

/-- The frames written one after another; an oversized one panics. -/
def writeFrames : List Frame → Except FrameError Bytes
  | [] => .ok []
  | frame :: rest => do
    let first ← frame.encode
    let later ← writeFrames rest
    return first ++ later

theorem writeFrames_sized {frames : List Frame} (sized : ∀ f ∈ frames, f.Sized) :
    writeFrames frames = .ok (frames.map Frame.bytes).flatten := by
  induction frames with
  | nil => rfl
  | cons frame rest ih =>
    obtain ⟨first, later⟩ := List.forall_mem_cons.mp sized
    rw [writeFrames, Frame.encode_sized first, ih later]
    rfl

/-- Frames are read back from any stream they were written to, and what follows them is left there;
`decode` accepts of a frame only the bytes `encode` writes for it. So no frame's bytes begin with those of
another. -/
theorem frame_format :
    (∀ (frames : List Frame) (trailing : Bytes), (∀ f ∈ frames, f.payload.2.length ≤ maxFramePayload) →
      ∃ stream, writeFrames frames = .ok stream ∧
        readMany readFrame frames.length (stream ++ trailing) = (frames.map Except.ok, trailing)) ∧
    (∀ (b : Bytes) (f : Frame), Frame.decode b = .ok f → f.encode = .ok (b.take (3 + Frame.payloadLen b))) ∧
    (∀ (f g : Frame) (a b : Bytes), f.encode = .ok a → g.encode = .ok b → a <+: b → f = g) ∧
    (∀ (b c : Bytes) (f : Frame), Frame.decode b = .ok f → Frame.decode c = .ok f →
      b.take (3 + Frame.payloadLen b) = c.take (3 + Frame.payloadLen c)) := by
  refine ⟨?_, ?_, ?_, ?_⟩
  · intro frames trailing sized
    refine ⟨_, writeFrames_sized sized, ?_⟩
    exact readMany_flatten (fun f member => readFrame_delimits (sized f member)) trailing
  · intro b f decoded
    exact Frame.encode_of_decode decoded
  · intro f g a b first second begins
    obtain ⟨sizedF, rfl⟩ := Frame.sized_of_encode first
    obtain ⟨sizedG, rfl⟩ := Frame.sized_of_encode second
    exact eq_of_begins (readFrame_delimits sizedF) (readFrame_delimits sizedG) (fun _ _ => Except.ok.inj) begins
  · intro b c f first second
    have one := Frame.encode_of_decode first
    rw [Frame.encode_of_decode second] at one
    exact (Except.ok.inj one).symm

theorem frame_format_ping_data :
    ∃ stream, writeFrames [.ping 7, .data [1, 2]] = .ok stream ∧
      readMany readFrame 2 (stream ++ [9]) = ([.ok (.ping 7), .ok (.data [1, 2])], [9]) :=
  frame_format.1 [.ping 7, .data [1, 2]] [9] (by decide)

end NoisyShuttle.Session
