import NoisyShuttle.Lib.Bytes

/-!
# Self-delimiting codecs

A reader that takes exactly the bytes a writer has put down for one item, whatever follows them, reads
back any sequence of items, and no item's bytes begin with those of another. A stream of such items is
cut in one way only, also when it ends inside one.
-/

namespace NoisyShuttle

variable {α ρ : Type*} {read : Bytes → ρ × Bytes} {write : α → Bytes} {good : α → ρ}

/-- `n` calls of a reader, one after another. -/
def readMany (read : Bytes → ρ × Bytes) : Nat → Bytes → List ρ × Bytes
  | 0, stream => ([], stream)
  | n + 1, stream =>
    let (first, rest) := read stream
    let (later, rest) := readMany read n rest
    (first :: later, rest)

/-- The reader returns `good a` at the bytes of `a` and leaves what follows. -/
def Delimits (read : Bytes → ρ × Bytes) (write : α → Bytes) (good : α → ρ) (a : α) : Prop :=
  ∀ rest, read (write a ++ rest) = (good a, rest)

theorem readMany_flatten {items : List α} (all : ∀ a ∈ items, Delimits read write good a) (trailing : Bytes) :
    readMany read items.length ((items.map write).flatten ++ trailing) = (items.map good, trailing) := by
  induction items with
  | nil => rfl
  | cons a items ih =>
    obtain ⟨first, later⟩ := List.forall_mem_cons.mp all
    have step := first ((items.map write).flatten ++ trailing)
    rw [List.map_cons, List.flatten_cons, List.append_assoc, List.length_cons, readMany]
    simp only [step, ih later, List.map_cons]

theorem readMany_add (m n : Nat) (stream : Bytes) :
    readMany read (m + n) stream =
      ((readMany read m stream).1 ++ (readMany read n (readMany read m stream).2).1,
        (readMany read n (readMany read m stream).2).2) := by
  induction m generalizing stream with
  | zero => rw [Nat.zero_add]; rfl
  | succ m ih =>
    rw [Nat.add_right_comm, readMany, readMany]
    simp only [ih, List.cons_append]

theorem eq_of_begins {a b : α} (first : Delimits read write good a) (second : Delimits read write good b)
    (inj : ∀ x y, good x = good y → x = y) (h : write a <+: write b) : a = b := by
  obtain ⟨rest, same⟩ := h
  have one := first rest
  have two := second []
  rw [List.append_nil, ← same, one] at two
  exact inj a b (Prod.mk.inj two).1

/-! ## Streams that end inside an item -/

section

variable {β : Type*}

def PrefixFree (item : List β → Prop) : Prop := ∀ a b, item a → item b → a <+: b → a = b

/-- The first part of an item, or nothing of it. -/
def Begun (item : List β → Prop) (part : List β) : Prop := ∃ whole, item whole ∧ part <+: whole ∧ part ≠ whole

/-- Whole items, and then a part of one more. -/
def EndsInside (item : List β → Prop) (stream : List β) : Prop :=
  ∃ (items : List (List β)) (part : List β), (∀ a ∈ items, item a) ∧ Begun item part ∧ part ≠ [] ∧
    stream = items.flatten ++ part

variable {item : List β → Prop} {items others : List (List β)} {part rest : List β}

theorem Begun.not_prefix (free : PrefixFree item) (begun : Begun item part) {a : List β} (whole : item a) :
    ¬ a <+: part := by
  intro first
  obtain ⟨b, other, before, differs⟩ := begun
  have same : a = b := free a b whole other (first.trans before)
  subst same
  exact differs (before.eq_of_length_le first.length_le)

theorem eq_of_prefixes (free : PrefixFree item) {a b stream : List β} (whole : item a) (other : item b)
    (first : a <+: stream) (second : b <+: stream) : a = b := by
  rcases List.prefix_or_prefix_of_prefix first second with ab | ba
  · exact free a b whole other ab
  · exact (free b a other whole ba).symm

/-- Two readings of one stream agree as far as both go. -/
theorem items_prefix (free : PrefixFree item) {stream : List β} (all : ∀ a ∈ items, item a)
    (more : ∀ a ∈ others, item a) (first : items.flatten <+: stream) (second : others.flatten <+: stream) :
    items <+: others ∨ others <+: items := by
  induction items generalizing others stream with
  | nil => exact .inl (List.nil_prefix ..)
  | cons a items ih =>
    obtain ⟨whole, all⟩ := List.forall_mem_cons.mp all
    cases others with
    | nil => exact .inr (List.nil_prefix ..)
    | cons b others =>
      obtain ⟨other, later⟩ := List.forall_mem_cons.mp more
      rw [List.flatten_cons] at first second
      have equal : a = b := eq_of_prefixes free whole other ((List.prefix_append ..).trans first)
        ((List.prefix_append ..).trans second)
      subst equal
      obtain ⟨left, rfl⟩ := (List.prefix_append a items.flatten).trans first
      rw [List.prefix_append_right_inj] at first second
      simpa only [List.prefix_cons_inj] using ih all later first second

theorem begun_unique (free : PrefixFree item) (begun : Begun item part) (left : Begun item rest)
    (all : ∀ a ∈ items, item a) (more : ∀ a ∈ others, item a)
    (same : items.flatten ++ part = others.flatten ++ rest) : part = rest := by
  induction items generalizing others with
  | nil =>
    cases others with
    | nil => exact same
    | cons b others =>
      have first : b <+: part := ⟨others.flatten ++ rest, by simpa using same.symm⟩
      exact absurd first (begun.not_prefix free (more b List.mem_cons_self))
  | cons a items ih =>
    obtain ⟨whole, all⟩ := List.forall_mem_cons.mp all
    cases others with
    | nil =>
      have first : a <+: rest := ⟨items.flatten ++ part, by simpa using same⟩
      exact absurd first (left.not_prefix free whole)
    | cons b others =>
      obtain ⟨other, later⟩ := List.forall_mem_cons.mp more
      rw [List.flatten_cons, List.flatten_cons, List.append_assoc, List.append_assoc] at same
      -- both are in front of the same stream
      have equal : a = b := eq_of_prefixes free whole other (List.prefix_append a _) (same ▸ List.prefix_append b _)
      subst equal
      exact ih all later (List.append_cancel_left same)

theorem endsInside_iff (free : PrefixFree item) (all : ∀ a ∈ items, item a) (begun : Begun item part) :
    EndsInside item (items.flatten ++ part) ↔ part ≠ [] := by
  constructor
  · rintro ⟨others, rest, more, left, some, same⟩
    rwa [begun_unique free begun left all more same]
  · intro some
    exact ⟨items, part, all, begun, some, rfl⟩

end

end NoisyShuttle
