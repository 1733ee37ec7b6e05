import Mathlib.Data.List.Basic

/-!
# Byte strings

Big-endian integers and exact reads over byte lists, as Rust's `to_be_bytes`, `from_be_bytes`
and `read_exact` compute them.
-/

namespace NoisyShuttle

abbrev Bytes := List UInt8

def be16 (n : Nat) : Bytes := [UInt8.ofNat (n / 256), UInt8.ofNat n]

def ofBe16 (hi lo : UInt8) : Nat := hi.toNat * 256 + lo.toNat

def be32 (n : Nat) : Bytes :=
  [UInt8.ofNat (n / 16777216), UInt8.ofNat (n / 65536), UInt8.ofNat (n / 256), UInt8.ofNat n]

def ofBe32 (b₃ b₂ b₁ b₀ : UInt8) : Nat :=
  b₃.toNat * 16777216 + b₂.toNat * 65536 + b₁.toNat * 256 + b₀.toNat

def be64 (n : Nat) : Bytes := be32 (n / 4294967296) ++ be32 n

def ofBe64 : Bytes → Nat
  | [b₇, b₆, b₅, b₄, b₃, b₂, b₁, b₀] => ofBe32 b₇ b₆ b₅ b₄ * 4294967296 + ofBe32 b₃ b₂ b₁ b₀
  | _ => 0

@[simp] theorem be16_length (n : Nat) : (be16 n).length = 2 := rfl

@[simp] theorem be64_length (n : Nat) : (be64 n).length = 8 := rfl

theorem ofBe16_be16 {n : Nat} (small : n < 65536) :
    ofBe16 (UInt8.ofNat (n / 256)) (UInt8.ofNat n) = n := by
  simp only [ofBe16, UInt8.toNat_ofNat']
  omega

theorem ofBe16_lt (hi lo : UInt8) : ofBe16 hi lo < 65536 := by
  have high := hi.toNat_lt
  have low := lo.toNat_lt
  unfold ofBe16
  omega

theorem be16_ofBe16 (hi lo : UInt8) : be16 (ofBe16 hi lo) = [hi, lo] := by
  have low := lo.toNat_lt
  have first : ofBe16 hi lo / 256 = hi.toNat := by
    unfold ofBe16
    omega
  have second : UInt8.ofNat (ofBe16 hi lo) = lo := by
    apply UInt8.toNat_inj.mp
    rw [UInt8.toNat_ofNat']
    unfold ofBe16
    omega
  rw [be16, first, second, UInt8.ofNat_toNat]

theorem ofBe32_lt (b₃ b₂ b₁ b₀ : UInt8) : ofBe32 b₃ b₂ b₁ b₀ < 4294967296 := by
  have h₃ := b₃.toNat_lt
  have h₂ := b₂.toNat_lt
  have h₁ := b₁.toNat_lt
  have h₀ := b₀.toNat_lt
  unfold ofBe32
  omega

theorem be32_ofBe32 (b₃ b₂ b₁ b₀ : UInt8) : be32 (ofBe32 b₃ b₂ b₁ b₀) = [b₃, b₂, b₁, b₀] := by
  have h₂ := b₂.toNat_lt
  have h₁ := b₁.toNat_lt
  have h₀ := b₀.toNat_lt
  have byte : ∀ (b : UInt8) (n : Nat), n % 256 = b.toNat → UInt8.ofNat n = b := by
    intro b n same
    apply UInt8.toNat_inj.mp
    rw [UInt8.toNat_ofNat']
    exact same
  unfold be32
  congr 1
  · apply byte
    have h₃ := b₃.toNat_lt
    unfold ofBe32
    omega
  congr 1
  · apply byte
    unfold ofBe32
    omega
  congr 1
  · apply byte
    unfold ofBe32
    omega
  congr 1
  apply byte
  unfold ofBe32
  omega

theorem ofBe32_be32_mod (n : Nat) :
    ofBe32 (UInt8.ofNat (n / 16777216)) (UInt8.ofNat (n / 65536)) (UInt8.ofNat (n / 256))
      (UInt8.ofNat n) = n % 4294967296 := by
  simp only [ofBe32, UInt8.toNat_ofNat']
  omega

theorem ofBe32_be32 {n : Nat} (small : n < 4294967296) :
    ofBe32 (UInt8.ofNat (n / 16777216)) (UInt8.ofNat (n / 65536)) (UInt8.ofNat (n / 256))
      (UInt8.ofNat n) = n := by
  rw [ofBe32_be32_mod, Nat.mod_eq_of_lt small]

theorem ofBe64_be64 {n : Nat} (small : n < 18446744073709551616) : ofBe64 (be64 n) = n := by
  simp only [be64, be32, List.cons_append, List.nil_append, ofBe64, ofBe32_be32_mod]
  omega

theorem be32_injective {m n : Nat} (left : m < 4294967296) (right : n < 4294967296) (h : be32 m = be32 n) : m = n := by
  have first := ofBe32_be32 left
  have second := ofBe32_be32 right
  simp only [be32, List.cons.injEq] at h
  obtain ⟨b₃, b₂, b₁, b₀, -⟩ := h
  rw [b₃, b₂, b₁, b₀, second] at first
  exact first.symm

theorem be64_injective {m n : Nat} (left : m < 18446744073709551616) (right : n < 18446744073709551616)
    (h : be64 m = be64 n) : m = n := by
  rw [← ofBe64_be64 left, ← ofBe64_be64 right, h]

theorem be32_mod (n : Nat) : be32 (n % 4294967296) = be32 n := by
  have byte {a b : Nat} (same : a % 256 = b % 256) : UInt8.ofNat a = UInt8.ofNat b :=
    UInt8.toNat_inj.mp (by rwa [UInt8.toNat_ofNat', UInt8.toNat_ofNat'])
  unfold be32
  rw [byte (by omega : n % 4294967296 / 16777216 % 256 = n / 16777216 % 256),
    byte (by omega : n % 4294967296 / 65536 % 256 = n / 65536 % 256),
    byte (by omega : n % 4294967296 / 256 % 256 = n / 256 % 256), byte (by omega : n % 4294967296 % 256 = n % 256)]

theorem be64_ofBe64 {bytes : Bytes} (whole : bytes.length = 8) : be64 (ofBe64 bytes) = bytes := by
  match bytes, whole with
  | [b₇, b₆, b₅, b₄, b₃, b₂, b₁, b₀], _ =>
    have low := ofBe32_lt b₃ b₂ b₁ b₀
    have first : (ofBe32 b₇ b₆ b₅ b₄ * 4294967296 + ofBe32 b₃ b₂ b₁ b₀) / 4294967296 = ofBe32 b₇ b₆ b₅ b₄ := by omega
    have second : (ofBe32 b₇ b₆ b₅ b₄ * 4294967296 + ofBe32 b₃ b₂ b₁ b₀) % 4294967296 = ofBe32 b₃ b₂ b₁ b₀ := by
      omega
    rw [ofBe64, be64, first, ← be32_mod (_ + _), second, be32_ofBe32, be32_ofBe32]
    rfl

theorem ofBe64_lt (bytes : Bytes) : ofBe64 bytes < 18446744073709551616 := by
  unfold ofBe64
  split
  · next b₇ b₆ b₅ b₄ b₃ b₂ b₁ b₀ =>
    have high := ofBe32_lt b₇ b₆ b₅ b₄
    have low := ofBe32_lt b₃ b₂ b₁ b₀
    omega
  · decide

theorem toNat_lengthByte {bytes : Bytes} (short : bytes.length ≤ 255) :
    (UInt8.ofNat bytes.length).toNat = bytes.length := by
  rw [UInt8.toNat_ofNat']
  omega

/-- `read_exact` of `n` bytes: the bytes read and the bytes left, or nothing at a short stream. -/
def readExact (n : Nat) (stream : Bytes) : Option (Bytes × Bytes) :=
  if n ≤ stream.length then some (stream.take n, stream.drop n) else none

theorem readExact_append (taken rest : Bytes) :
    readExact taken.length (taken ++ rest) = some (taken, rest) := by
  simp [readExact]

theorem readExact_eq_some {n : Nat} {stream taken rest : Bytes} :
    readExact n stream = some (taken, rest) ↔ stream = taken ++ rest ∧ taken.length = n := by
  constructor
  · intro h
    unfold readExact at h
    split at h
    · next fits =>
      simp only [Option.some.injEq, Prod.mk.injEq] at h
      obtain ⟨rfl, rfl⟩ := h
      exact ⟨(List.take_append_drop n stream).symm, List.length_take_of_le fits⟩
    · cases h
  · rintro ⟨rfl, rfl⟩
    exact readExact_append taken rest

end NoisyShuttle
