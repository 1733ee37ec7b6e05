import Mathlib.Data.List.Basic

/-!
# Buffers of a fixed size

Slices of a buffer and writes into it, with the bounds checks of the language; `none` is a panic.
-/

namespace NoisyShuttle

variable {α : Type}

/-- `&buf[start..stop]`. -/
def slice (buf : List α) (start stop : Nat) : Option (List α) :=
  if start ≤ stop ∧ stop ≤ buf.length then some ((buf.take stop).drop start) else none

/-- `values` written to `&mut buf[start..start + values.len()]`. -/
def splice (buf : List α) (start : Nat) (values : List α) : Option (List α) :=
  if start + values.length ≤ buf.length then some (buf.take start ++ (values ++ buf.drop (start + values.length)))
  else none

/-- `buf.copy_within(0..n, dest)`. -/
def copyWithin (buf : List α) (n dest : Nat) : Option (List α) := (slice buf 0 n).bind (splice buf dest)

/-- What a read of `values` leaves in the buffer. -/
def refill (buf values : List α) : List α := values ++ buf.drop values.length

theorem length_refill {buf values : List α} (fits : values.length ≤ buf.length) :
    (refill buf values).length = buf.length := by
  rw [refill, List.length_append, List.length_drop]
  omega

theorem slice_refill {buf values : List α} {start : Nat} (fits : values.length ≤ buf.length)
    (ordered : start ≤ values.length) : slice (refill buf values) start values.length = some (values.drop start) := by
  rw [slice, length_refill fits, if_pos ⟨ordered, fits⟩, refill, List.take_left]

theorem slice_reversed {buf : List α} {start stop : Nat} (reversed : stop < start) : slice buf start stop = none :=
  if_neg (by omega)

theorem splice_eq (front back : List α) {values old : List α} (same : old.length = values.length) :
    splice (front ++ (old ++ back)) front.length values = some (front ++ (values ++ back)) := by
  have fits : front.length + values.length ≤ (front ++ (old ++ back)).length := by
    simp only [List.length_append]
    omega
  rw [splice, if_pos fits, List.take_left, ← List.drop_drop, List.drop_left, ← same, List.drop_left]

theorem slice_prefix (front back : List α) : slice (front ++ back) 0 front.length = some front := by
  rw [slice, if_pos ⟨Nat.zero_le _, by simp⟩, List.take_left]
  rfl

theorem exists_split {buf : List α} {n : Nat} (fits : n ≤ buf.length) :
    ∃ front back, buf = front ++ back ∧ front.length = n ∧ back.length = buf.length - n :=
  ⟨buf.take n, buf.drop n, (List.take_append_drop n buf).symm, List.length_take_of_le fits, List.length_drop⟩

theorem splice_overflow {buf values : List α} {start : Nat} (full : buf.length < start + values.length) :
    splice buf start values = none :=
  if_neg (by omega)

end NoisyShuttle
