import NoisyShuttle.Lib.Bytes
import Mathlib.Tactic.Linarith

/-!
# Time-based signatures

Words are `UInt64` and `UInt8`, whose arithmetic wraps as it does in the released binary. The hash
function is the parameter `blake2s`.
-/

namespace NoisyShuttle.Tunnel

variable (blake2s : Bytes → Bytes)

def possiblyInsecureHashWithKey (key msg : Bytes) : Bytes := blake2s (blake2s key ++ msg)

structure Totp where
  key : Bytes
  step : UInt64
  skew : UInt8

namespace Totp

def context : Bytes := "TOTP for the secure tunnel under snow".toUTF8.toList

def new (key : Bytes) (stepInSecs : UInt64) (skew : UInt8) : Totp :=
  ⟨possiblyInsecureHashWithKey blake2s context key, stepInSecs, skew⟩

def generate (totp : Totp) (n : Nat) (time : UInt64) : Bytes :=
  (possiblyInsecureHashWithKey blake2s totp.key (be64 (time / totp.step).toNat)).take n

def sign (totp : Totp) (n : Nat) (time : UInt64) (nonce : Bytes) : Bytes :=
  (possiblyInsecureHashWithKey blake2s (totp.generate blake2s n time) nonce).take n

def verify (totp : Totp) (n : Nat) (nonce sig : Bytes) (time : UInt64) : Bool :=
  let basestep := time / totp.step - totp.skew.toUInt64
  (List.range ((totp.skew * 2).toNat + 1)).any fun i =>
    totp.sign blake2s n ((basestep + UInt64.ofNat i) * totp.step) nonce == sig

/-- The signature of a step number, which `sign` computes from any time within the step. -/
def signStep (totp : Totp) (n : Nat) (k : Nat) (nonce : Bytes) : Bytes :=
  (possiblyInsecureHashWithKey blake2s
    ((possiblyInsecureHashWithKey blake2s totp.key (be64 k)).take n) nonce).take n

theorem sign_eq_signStep (totp : Totp) (n : Nat) (time : UInt64) (nonce : Bytes) :
    totp.sign blake2s n time nonce = totp.signStep blake2s n (time / totp.step).toNat nonce := rfl

/-- The clock values at which the acceptance window neither under- nor overflows. -/
def InRange (totp : Totp) (time : UInt64) : Prop :=
  totp.skew.toNat ≤ time.toNat / totp.step.toNat ∧
    (time.toNat / totp.step.toNat + totp.skew.toNat) * totp.step.toNat < 2 ^ 64

instance (totp : Totp) (time : UInt64) : Decidable (totp.InRange time) := inferInstanceAs (Decidable (_ ∧ _))

theorem quotient_toNat (totp : Totp) (time : UInt64) : (time / totp.step).toNat = time.toNat / totp.step.toNat :=
  UInt64.toNat_div ..

theorem skew_le_quotient {totp : Totp} {time : UInt64} (range : totp.InRange time) :
    totp.skew.toUInt64 ≤ time / totp.step := by
  rw [UInt64.le_iff_toNat_le, quotient_toNat, UInt8.toNat_toUInt64]
  exact range.1

theorem basestep_toNat {totp : Totp} {time : UInt64} (range : totp.InRange time) :
    (time / totp.step - totp.skew.toUInt64).toNat = time.toNat / totp.step.toNat - totp.skew.toNat := by
  rw [UInt64.toNat_sub_of_le _ _ (skew_le_quotient range), quotient_toNat, UInt8.toNat_toUInt64]

/-- No round leaves the range of `u64`, neither its step number nor the time made of it. -/
theorem round_fits {totp : Totp} {time : UInt64} {i : Nat} (pos : 0 < totp.step.toNat) (range : totp.InRange time)
    (round : i ≤ 2 * totp.skew.toNat) :
    time.toNat / totp.step.toNat - totp.skew.toNat + i < 2 ^ 64 ∧
      (time.toNat / totp.step.toNat - totp.skew.toNat + i) * totp.step.toNat < 2 ^ 64 := by
  obtain ⟨low, high⟩ := range
  have le : time.toNat / totp.step.toNat - totp.skew.toNat + i ≤
      time.toNat / totp.step.toNat + totp.skew.toNat := by omega
  have product := Nat.lt_of_le_of_lt (Nat.mul_le_mul_right totp.step.toNat le) high
  exact ⟨Nat.lt_of_le_of_lt (Nat.le_mul_of_pos_right _ pos) product, product⟩

theorem index_toNat {totp : Totp} {i : Nat} (round : i ≤ 2 * totp.skew.toNat) : (UInt64.ofNat i).toNat = i := by
  have skewBound := totp.skew.toNat_lt
  rw [UInt64.toNat_ofNat', Nat.mod_eq_of_lt (by omega)]

theorem round_toNat {totp : Totp} {time : UInt64} {i : Nat} (pos : 0 < totp.step.toNat)
    (range : totp.InRange time) (round : i ≤ 2 * totp.skew.toNat) :
    (time / totp.step - totp.skew.toUInt64 + UInt64.ofNat i).toNat =
      time.toNat / totp.step.toNat - totp.skew.toNat + i := by
  rw [UInt64.toNat_add, basestep_toNat range, index_toNat round, Nat.mod_eq_of_lt (round_fits pos range round).1]

theorem verify_round {totp : Totp} {time : UInt64} {i : Nat} (pos : 0 < totp.step.toNat)
    (range : totp.InRange time) (round : i ≤ 2 * totp.skew.toNat) :
    ((time / totp.step - totp.skew.toUInt64 + UInt64.ofNat i) * totp.step / totp.step).toNat =
      time.toNat / totp.step.toNat - totp.skew.toNat + i := by
  rw [UInt64.toNat_div, UInt64.toNat_mul, round_toNat pos range round,
    Nat.mod_eq_of_lt (round_fits pos range round).2, Nat.mul_div_cancel _ pos]

theorem rounds (totp : Totp) (small : totp.skew.toNat < 128) : (totp.skew * 2).toNat = 2 * totp.skew.toNat := by
  rw [UInt8.toNat_mul]
  show totp.skew.toNat * 2 % 2 ^ 8 = _
  omega

/-- The acceptance window: a signature verifies exactly when it is the one of a step within `skew`. -/
theorem verify_iff {totp : Totp} {n : Nat} {nonce sig : Bytes} {time : UInt64} (pos : 0 < totp.step.toNat)
    (small : totp.skew.toNat < 128) (range : totp.InRange time) :
    totp.verify blake2s n nonce sig time = true ↔
      ∃ k, time.toNat / totp.step.toNat - totp.skew.toNat ≤ k ∧
        k ≤ time.toNat / totp.step.toNat + totp.skew.toNat ∧ totp.signStep blake2s n k nonce = sig := by
  have low := range.1
  simp only [verify, List.any_eq_true, List.mem_range, beq_iff_eq, rounds totp small, sign_eq_signStep]
  constructor
  · rintro ⟨i, round, same⟩
    rw [verify_round pos range (by omega)] at same
    exact ⟨_, by omega, by omega, same⟩
  · rintro ⟨k, above, below, same⟩
    refine ⟨k - (time.toNat / totp.step.toNat - totp.skew.toNat), by omega, ?_⟩
    rw [verify_round pos range (by omega), Nat.add_sub_cancel' above]
    exact same

/-- A signature verifies at every time whose step is within `skew` of its own. -/
theorem verify_sign {totp : Totp} {signed verified : UInt64} (n : Nat) (nonce : Bytes) (pos : 0 < totp.step.toNat)
    (small : totp.skew.toNat < 128) (range : totp.InRange verified)
    (later : verified.toNat / totp.step.toNat ≤ signed.toNat / totp.step.toNat + totp.skew.toNat)
    (earlier : signed.toNat / totp.step.toNat ≤ verified.toNat / totp.step.toNat + totp.skew.toNat) :
    totp.verify blake2s n nonce (totp.sign blake2s n signed nonce) verified = true := by
  apply (verify_iff blake2s pos small range).mpr
  refine ⟨signed.toNat / totp.step.toNat, Nat.sub_le_iff_le_add.mpr later, earlier, ?_⟩
  rw [sign_eq_signStep, UInt64.toNat_div]

def DistinctSteps (totp : Totp) (n : Nat) (nonce : Bytes) : Prop :=
  ∀ first second : UInt64, totp.sign blake2s n first nonce = totp.sign blake2s n second nonce →
    first / totp.step = second / totp.step

theorem signStep_eq_sign {totp : Totp} {k : Nat} (n : Nat) (nonce : Bytes) (pos : 0 < totp.step.toNat)
    (fits : k * totp.step.toNat < 2 ^ 64) :
    (UInt64.ofNat (k * totp.step.toNat) / totp.step).toNat = k ∧
      totp.signStep blake2s n k nonce = totp.sign blake2s n (UInt64.ofNat (k * totp.step.toNat)) nonce := by
  have quotient : (UInt64.ofNat (k * totp.step.toNat) / totp.step).toNat = k := by
    rw [UInt64.toNat_div, UInt64.toNat_ofNat', Nat.mod_eq_of_lt fits, Nat.mul_div_cancel _ pos]
  exact ⟨quotient, by rw [sign_eq_signStep, quotient]⟩

theorem signStep_injective {totp : Totp} {n k k' : Nat} {nonce : Bytes}
    (distinct : totp.DistinctSteps blake2s n nonce) (pos : 0 < totp.step.toNat)
    (fits : k * totp.step.toNat < 2 ^ 64) (fits' : k' * totp.step.toNat < 2 ^ 64)
    (same : totp.signStep blake2s n k nonce = totp.signStep blake2s n k' nonce) : k = k' := by
  obtain ⟨quotient, signed⟩ := signStep_eq_sign blake2s n nonce pos fits
  obtain ⟨quotient', signed'⟩ := signStep_eq_sign blake2s n nonce pos fits'
  rw [signed, signed'] at same
  rw [← quotient, ← quotient', distinct _ _ same]

/-- Two acceptances of one signature lie within one window of `2 * skew + 1` steps. -/
theorem verify_close {totp : Totp} {n : Nat} {nonce sig : Bytes} {first second : UInt64}
    (distinct : totp.DistinctSteps blake2s n nonce)
    (pos : 0 < totp.step.toNat) (small : totp.skew.toNat < 128)
    (range₁ : totp.InRange first) (range₂ : totp.InRange second)
    (accepted₁ : totp.verify blake2s n nonce sig first = true)
    (accepted₂ : totp.verify blake2s n nonce sig second = true) :
    second.toNat < first.toNat + (2 * totp.skew.toNat + 1) * totp.step.toNat := by
  obtain ⟨k, _, below₁, sig₁⟩ := (verify_iff blake2s pos small range₁).mp accepted₁
  obtain ⟨k', above₂, below₂, sig₂⟩ := (verify_iff blake2s pos small range₂).mp accepted₂
  obtain rfl := signStep_injective blake2s distinct pos
    (Nat.lt_of_le_of_lt (Nat.mul_le_mul_right _ below₁) range₁.2)
    (Nat.lt_of_le_of_lt (Nat.mul_le_mul_right _ below₂) range₂.2) (sig₁.trans sig₂.symm)
  have quotients : second.toNat / totp.step.toNat ≤ first.toNat / totp.step.toNat + 2 * totp.skew.toNat := by
    omega
  have upper := Nat.lt_div_mul_add pos (a := second.toNat)
  have lower := Nat.div_mul_le_self first.toNat totp.step.toNat
  calc second.toNat < (second.toNat / totp.step.toNat + 1) * totp.step.toNat := by rw [Nat.add_mul]; omega
    _ ≤ (first.toNat / totp.step.toNat + 2 * totp.skew.toNat + 1) * totp.step.toNat :=
        Nat.mul_le_mul_right _ (by omega)
    _ ≤ first.toNat + (2 * totp.skew.toNat + 1) * totp.step.toNat := by
        rw [Nat.add_assoc, Nat.add_mul]; omega

/-! ### The arithmetic of a debug build -/

def checkedSub (a b : UInt64) : Option UInt64 := if b ≤ a then some (a - b) else none

def checkedAdd (a b : UInt64) : Option UInt64 := if a.toNat + b.toNat < 2 ^ 64 then some (a + b) else none

def checkedMul (a b : UInt64) : Option UInt64 := if a.toNat * b.toNat < 2 ^ 64 then some (a * b) else none

def checkedMul8 (a b : UInt8) : Option UInt8 := if a.toNat * b.toNat < 2 ^ 8 then some (a * b) else none

/-- The rounds of `verify` that are left, with every operation checked. -/
def verifyRounds (totp : Totp) (n : Nat) (nonce sig : Bytes) (basestep : UInt64) : List Nat → Option Bool
  | [] => some false
  | i :: later => do
    let step ← checkedAdd basestep (UInt64.ofNat i)
    let stepTime ← checkedMul step totp.step
    if totp.sign blake2s n stepTime nonce == sig then some true else totp.verifyRounds n nonce sig basestep later

/-- `verify` where an operation that over- or underflows, or divides by zero, panics (`none`). -/
def verifyChecked (totp : Totp) (n : Nat) (nonce sig : Bytes) (time : UInt64) : Option Bool := do
  guard (totp.step ≠ 0)
  let basestep ← checkedSub (time / totp.step) totp.skew.toUInt64
  let last ← checkedMul8 totp.skew 2
  totp.verifyRounds blake2s n nonce sig basestep (List.range (last.toNat + 1))

theorem verifyRounds_eq {totp : Totp} {n : Nat} {nonce sig : Bytes} {time : UInt64} {indices : List Nat}
    (pos : 0 < totp.step.toNat) (range : totp.InRange time) (inside : ∀ i ∈ indices, i ≤ 2 * totp.skew.toNat) :
    totp.verifyRounds blake2s n nonce sig (time / totp.step - totp.skew.toUInt64) indices =
      some (indices.any fun i => totp.sign blake2s n
        ((time / totp.step - totp.skew.toUInt64 + UInt64.ofNat i) * totp.step) nonce == sig) := by
  induction indices with
  | nil => rfl
  | cons i later ih =>
    obtain ⟨round, others⟩ := List.forall_mem_cons.mp inside
    obtain ⟨sum, product⟩ := round_fits pos range round
    have added : checkedAdd (time / totp.step - totp.skew.toUInt64) (UInt64.ofNat i) =
        some (time / totp.step - totp.skew.toUInt64 + UInt64.ofNat i) := by
      apply if_pos
      rw [basestep_toNat range, index_toNat round]
      exact sum
    have multiplied : checkedMul (time / totp.step - totp.skew.toUInt64 + UInt64.ofNat i) totp.step =
        some ((time / totp.step - totp.skew.toUInt64 + UInt64.ofNat i) * totp.step) := by
      apply if_pos
      rw [round_toNat pos range round]
      exact product
    simp only [verifyRounds, added, multiplied, ih others, Option.bind_eq_bind, Option.bind_some, List.any_cons]
    split
    · next same => rw [same, Bool.true_or]
    · next different => rw [Bool.eq_false_iff.mpr different, Bool.false_or]

theorem verifyChecked_eq {totp : Totp} {n : Nat} {nonce sig : Bytes} {time : UInt64} (pos : 0 < totp.step.toNat)
    (small : totp.skew.toNat < 128) (range : totp.InRange time) :
    totp.verifyChecked blake2s n nonce sig time = some (totp.verify blake2s n nonce sig time) := by
  have nonzero : totp.step ≠ 0 := by
    intro zero
    rw [zero] at pos
    exact absurd pos (Nat.lt_irrefl _)
  have subtracted : checkedSub (time / totp.step) totp.skew.toUInt64 =
      some (time / totp.step - totp.skew.toUInt64) := if_pos (skew_le_quotient range)
  have doubled : checkedMul8 totp.skew 2 = some (totp.skew * 2) := by
    apply if_pos
    show totp.skew.toNat * 2 < 2 ^ 8
    omega
  have inside : ∀ i ∈ List.range ((totp.skew * 2).toNat + 1), i ≤ 2 * totp.skew.toNat := by
    intro i member
    rw [List.mem_range, rounds totp small] at member
    omega
  simp only [verifyChecked, nonzero, subtracted, doubled, guard, ne_eq, not_false_eq_true, if_true, Option.bind_eq_bind,
    Option.pure_def, Option.bind_some, verifyRounds_eq blake2s pos range inside, verify]

/-- The window is exact: within it every signature verifies, nothing else does, and nothing wraps. -/
theorem acceptance_window (totp : Totp) (n : Nat) (nonce : Bytes) (time : UInt64) (pos : 0 < totp.step.toNat)
    (small : totp.skew.toNat < 128) (low : totp.skew.toNat ≤ time.toNat / totp.step.toNat)
    (high : (time.toNat / totp.step.toNat + totp.skew.toNat) * totp.step.toNat < 2 ^ 64) :
    (∀ sig, totp.verify blake2s n nonce sig time = true ↔
        ∃ k, time.toNat / totp.step.toNat - totp.skew.toNat ≤ k ∧
          k ≤ time.toNat / totp.step.toNat + totp.skew.toNat ∧ sig = totp.signStep blake2s n k nonce) ∧
      (∀ signed : UInt64, signed.toNat / totp.step.toNat ≤ time.toNat / totp.step.toNat + totp.skew.toNat →
        time.toNat / totp.step.toNat ≤ signed.toNat / totp.step.toNat + totp.skew.toNat →
        totp.verify blake2s n nonce (totp.sign blake2s n signed nonce) time = true) ∧
      ∀ sig, totp.verifyChecked blake2s n nonce sig time = some (totp.verify blake2s n nonce sig time) := by
  refine ⟨?_, ?_, ?_⟩
  · intro sig
    rw [verify_iff blake2s pos small ⟨low, high⟩]
    simp only [eq_comm]
  · intro signed earlier later
    exact verify_sign blake2s n nonce pos small ⟨low, high⟩ later earlier
  · intro sig
    exact verifyChecked_eq blake2s pos small ⟨low, high⟩

theorem acceptance_window_minutes :
    (Totp.new id [0x6b] 60 2).verify id 16 [1, 2] ((Totp.new id [0x6b] 60 2).sign id 16 600 [1, 2]) 750 = true ∧
      (Totp.new id [0x6b] 60 2).verifyChecked id 16 [1, 2] [] 750 =
        some ((Totp.new id [0x6b] 60 2).verify id 16 [1, 2] [] 750) := by
  obtain ⟨-, near, checked⟩ := acceptance_window id (Totp.new id [0x6b] 60 2) 16 [1, 2] 750 (by decide) (by decide)
    (by decide) (by decide)
  exact ⟨near 600 (by decide) (by decide), checked []⟩

end Totp
end NoisyShuttle.Tunnel
