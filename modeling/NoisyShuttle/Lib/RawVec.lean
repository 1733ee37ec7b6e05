import Mathlib.Data.List.Basic

/-!
# Growable vectors with spare capacity

`cells` are all allocated cells, `len` the ones in use. Cells past `len` hold whatever was there
before, or fresh uninitialised memory.
-/

namespace NoisyShuttle

structure RawVec (α : Type*) where
  cells : List α
  len : Nat
  len_le : len ≤ cells.length

namespace RawVec

variable {α : Type*}

def contents (v : RawVec α) : List α := v.cells.take v.len

def capacity (v : RawVec α) : Nat := v.cells.length

def empty : RawVec α := ⟨[], 0, Nat.le_refl 0⟩

def reserveExact (junk : α) (additional : Nat) (v : RawVec α) : RawVec α :=
  ⟨v.cells ++ List.replicate (v.len + additional - v.capacity) junk, v.len, by
    have := v.len_le
    simp only [List.length_append]
    omega⟩

/-- The unsafe `set_len`: its contract is the bound. -/
def setLen (n : Nat) (v : RawVec α) (fits : n ≤ v.capacity) : RawVec α := ⟨v.cells, n, fits⟩

def clear (v : RawVec α) : RawVec α := ⟨v.cells, 0, Nat.zero_le _⟩

def truncate (n : Nat) (v : RawVec α) : RawVec α :=
  ⟨v.cells, min v.len n, Nat.le_trans (Nat.min_le_left ..) v.len_le⟩

def overwrite (bytes : List α) (v : RawVec α) : RawVec α :=
  ⟨bytes ++ v.cells.drop bytes.length, v.len, by
    have := v.len_le
    simp only [List.length_append, List.length_drop]
    omega⟩

@[simp] theorem contents_clear (v : RawVec α) : v.clear.contents = [] := by simp [clear, contents]

theorem capacity_overwrite {bytes : List α} {v : RawVec α} (fits : bytes.length ≤ v.capacity) :
    (v.overwrite bytes).capacity = v.capacity := by
  simp only [capacity, overwrite, List.length_append, List.length_drop] at *
  omega

theorem le_capacity_overwrite (bytes : List α) (v : RawVec α) : bytes.length ≤ (v.overwrite bytes).capacity := by
  simp [capacity, overwrite]

theorem length_contents (v : RawVec α) : v.contents.length = v.len := by
  simp [contents, v.len_le]

theorem le_capacity_reserveExact (junk : α) (additional : Nat) (v : RawVec α) :
    v.len + additional ≤ (v.reserveExact junk additional).capacity := by
  simp only [capacity, reserveExact, List.length_append, List.length_replicate]
  omega

theorem le_capacity_reserve_up_to (junk : α) (n : Nat) (v : RawVec α) :
    n ≤ (v.reserveExact junk (max n v.len - v.len)).capacity := by
  have := v.le_capacity_reserveExact junk (max n v.len - v.len)
  omega

theorem capacity_reserveExact (junk : α) (additional : Nat) (v : RawVec α) :
    (v.reserveExact junk additional).capacity = max v.capacity (v.len + additional) := by
  simp only [capacity, reserveExact, List.length_append, List.length_replicate]
  omega

theorem contents_overwrite_all {bytes : List α} {v : RawVec α} (all : v.len = bytes.length) :
    (v.overwrite bytes).contents = bytes := by
  simp [contents, overwrite, all]

theorem contents_truncate_overwrite {bytes : List α} {v : RawVec α} (fits : bytes.length ≤ v.len) :
    ((v.overwrite bytes).truncate bytes.length).contents = bytes := by
  simp [contents, truncate, overwrite, fits]

end RawVec
end NoisyShuttle
