import NoisyShuttle.Lib.Bytes
import Mathlib.Data.List.DropRight
import Mathlib.Data.Nat.Digits.Defs

/-!
# Text

Rust's `str` as its characters: its bytes, splitting at a separator, slices that end inside the text,
`str::trim` and `str::parse` for unsigned integers.
-/

namespace NoisyShuttle

abbrev Text := List Char

inductive Panic where
  | outOfRange | charBoundary
  deriving DecidableEq, Repr

def Text.encoded (text : Text) : Bytes := text.flatMap String.utf8EncodeChar

def ascii (literal : String) : Bytes := Text.encoded literal.toList

theorem Text.encoded_append (first second : Text) :
    Text.encoded (first ++ second) = first.encoded ++ second.encoded := List.flatMap_append

theorem Text.validateUTF8_encoded (text : Text) : ByteArray.validateUTF8 ⟨text.encoded.toArray⟩ = true := by
  apply ByteArray.validateUTF8_eq_true_iff.mpr
  refine .intro text ?_
  apply ByteArray.ext
  simp [List.utf8Encode, Text.encoded]

def eqIgnoreAsciiCase (first second : Text) : Bool := first.map Char.toLower = second.map Char.toLower

section Split

variable {α : Type*} [DecidableEq α]

/-- What comes before and after the first `sep`. -/
def breakOn (sep : List α) : List α → Option (List α × List α)
  | [] => none
  | x :: xs =>
    if sep.isPrefixOf (x :: xs) then some ([], (x :: xs).drop sep.length)
    else (breakOn sep xs).map fun (before, after) => (x :: before, after)

theorem breakOn_eq_append {sep text before after : List α} (h : breakOn sep text = some (before, after)) :
    text = before ++ sep ++ after := by
  induction text generalizing before with
  | nil => cases h
  | cons x xs ih =>
    unfold breakOn at h
    split at h
    · next first =>
      cases h
      exact List.prefix_iff_eq_append.mp (List.isPrefixOf_iff_prefix.mp first) |>.symm
    · obtain ⟨⟨found, rest⟩, broken, same⟩ := Option.map_eq_some_iff.mp h
      cases same
      rw [ih broken]
      rfl

theorem breakOn_of_not_mem {c : α} {before : List α} (absent : c ∉ before) (after : List α) :
    breakOn [c] (before ++ c :: after) = some (before, after) := by
  induction before with
  | nil => simp [breakOn]
  | cons x before ih =>
    obtain ⟨different, absent⟩ := not_or.mp (mt List.mem_cons.mpr absent)
    have elsewhere : ¬ [c].isPrefixOf (x :: (before ++ c :: after)) = true := by simp [different]
    rw [List.cons_append, breakOn, if_neg elsewhere, ih absent]
    rfl

/-- The first piece of `text.split(sep)`. -/
def firstPiece (sep text : List α) : List α := (breakOn sep text).elim text Prod.fst

/-- Cutting at a separator leaves what comes before its first element. -/
theorem takeWhile_firstPiece {c : α} {sep : List α} (text : List α) :
    (firstPiece (c :: sep) text).takeWhile (· ≠ c) = text.takeWhile (· ≠ c) := by
  unfold firstPiece
  induction text with
  | nil => rfl
  | cons x xs ih =>
    unfold breakOn
    split
    · next first =>
      obtain ⟨rest, whole⟩ := List.isPrefixOf_iff_prefix.mp first
      obtain ⟨same, -⟩ := List.cons.inj whole
      simp [same]
    · rw [List.takeWhile_cons, ← ih]
      cases breakOn (c :: sep) xs with
      | none => simp [List.takeWhile_cons]
      | some broken => simp [List.takeWhile_cons]

theorem takeWhile_append_of_not_mem {c : α} {piece : List α} (absent : c ∉ piece) (rest : List α) :
    (piece ++ rest).takeWhile (· ≠ c) = piece ++ rest.takeWhile (· ≠ c) := by
  apply List.takeWhile_append_of_pos
  intro x member
  simp only [decide_eq_true_eq]
  exact fun same => absent (same ▸ member)

theorem dropWhile_eq_cons {c : α} {text : List α} (member : c ∈ text) :
    ∃ rest, text.dropWhile (· ≠ c) = c :: rest := by
  induction text with
  | nil => cases member
  | cons x xs ih =>
    by_cases same : x = c
    · exact ⟨xs, by simp [same]⟩
    · obtain ⟨rest, cut⟩ := ih ((List.mem_cons.mp member).resolve_left (Ne.symm same))
      exact ⟨rest, by rw [← cut]; simp [same]⟩

end Split

/-- `&text[..text.len() - 1]`. -/
def dropLastByte (text : Text) : Except Panic Text :=
  match text.getLast? with
  | none => .error .outOfRange
  | some c => if c.utf8Size = 1 then .ok text.dropLast else .error .charBoundary

def parseDigit (bound n : Nat) (c : Char) : Option Nat :=
  if c.isDigit ∧ 10 * n + (c.toNat - 48) < bound then some (10 * n + (c.toNat - 48)) else none

/-- `parse` for the unsigned integers below `bound`: an optional plus sign, then digits. -/
def parseUnsigned (bound : Nat) (text : Text) : Option Nat :=
  let digits := if text.head? = some '+' then text.tail else text
  if digits = [] then none else digits.foldlM (parseDigit bound) 0

theorem parseDigit_lt {bound n m : Nat} {c : Char} (h : parseDigit bound n c = some m) : m < bound := by
  unfold parseDigit at h
  split at h
  · next fits =>
    obtain rfl := Option.some.inj h
    exact fits.2
  · cases h

theorem foldlM_parseDigit_lt {bound n m : Nat} {digits : Text} (start : n < bound)
    (h : digits.foldlM (parseDigit bound) n = some m) : m < bound := by
  induction digits generalizing n with
  | nil =>
    obtain rfl := Option.some.inj h
    exact start
  | cons c digits ih =>
    rw [List.foldlM_cons] at h
    obtain ⟨next, first, h⟩ := Option.bind_eq_some_iff.mp h
    exact ih (parseDigit_lt first) h

theorem parseUnsigned_lt {bound n : Nat} {text : Text} (h : parseUnsigned bound text = some n) : n < bound := by
  unfold parseUnsigned at h
  dsimp only at h
  generalize (if text.head? = some '+' then text.tail else text) = digits at h
  cases digits with
  | nil => cases h
  | cons c digits =>
    rw [if_neg (List.cons_ne_nil c digits), List.foldlM_cons] at h
    obtain ⟨next, first, h⟩ := Option.bind_eq_some_iff.mp h
    exact foldlM_parseDigit_lt (parseDigit_lt first) h

theorem foldlM_parseDigit_of_mem {bound : Nat} {digits : Text} {c : Char} (odd : c.isDigit = false)
    (member : c ∈ digits) (n : Nat) : digits.foldlM (parseDigit bound) n = none := by
  induction digits generalizing n with
  | nil => cases member
  | cons x digits ih =>
    rw [List.foldlM_cons]
    rcases List.mem_cons.mp member with same | later
    · have refused : parseDigit bound n x = none := by simp [parseDigit, ← same, odd]
      rw [refused]
      rfl
    · cases parseDigit bound n x with
      | none => rfl
      | some next => exact ih later next

/-- A text with a character that is neither a digit nor a sign is no number. -/
theorem parseUnsigned_of_mem {bound : Nat} {text : Text} {c : Char} (odd : c.isDigit = false) (unsigned : c ≠ '+')
    (member : c ∈ text) : parseUnsigned bound text = none := by
  have inside : c ∈ if text.head? = some '+' then text.tail else text := by
    split
    · next plus =>
      cases text with
      | nil => cases member
      | cons x rest =>
        obtain rfl := Option.some.inj plus
        exact (List.mem_cons.mp member).resolve_left unsigned
    · exact member
  unfold parseUnsigned
  dsimp only
  rw [if_neg (List.ne_nil_of_mem inside), foldlM_parseDigit_of_mem odd inside]

theorem parseUnsigned_colon (bound : Nat) (rest : Text) : parseUnsigned bound (':' :: rest) = none :=
  parseUnsigned_of_mem (by decide) (by decide) List.mem_cons_self

/-! ### Decimal numbers -/

theorem parseDigit_digitChar {bound n d : Nat} (digit : d < 10) (fits : 10 * n + d < bound) :
    parseDigit bound n d.digitChar = some (10 * n + d) := by
  have code : d.digitChar.isDigit = true ∧ d.digitChar.toNat - 48 = d := by
    have all : ∀ d < 10, d.digitChar.isDigit = true ∧ d.digitChar.toNat - 48 = d := by decide
    exact all d digit
  unfold parseDigit
  rw [code.2, if_pos ⟨code.1, fits⟩]

theorem foldlM_parseDigit_toDigits {bound n : Nat} (small : n < bound) :
    (Nat.toDigits 10 n).foldlM (parseDigit bound) 0 = some n := by
  induction n using Nat.strong_induction_on with
  | _ n ih =>
    by_cases one : n < 10
    · have digit := parseDigit_digitChar (n := 0) one (by omega : 10 * 0 + n < bound)
      rw [Nat.toDigits_of_lt_base one, List.foldlM_cons, digit, Nat.mul_zero, Nat.zero_add]
      rfl
    · have digit := parseDigit_digitChar (n := n / 10) (Nat.mod_lt n (by decide))
        (by omega : 10 * (n / 10) + n % 10 < bound)
      rw [Nat.toDigits_of_base_le (by decide) (by omega), List.foldlM_append, ih (n / 10) (by omega) (by omega),
        Option.bind_eq_bind, Option.bind_some, List.foldlM_cons, digit, Nat.div_add_mod]
      rfl

theorem parseUnsigned_toDigits {bound n : Nat} (small : n < bound) :
    parseUnsigned bound (Nat.toDigits 10 n) = some n := by
  have unsigned : (Nat.toDigits 10 n).head? ≠ some '+' := by
    intro plus
    have digit := Nat.isDigit_of_mem_toDigits (by decide) (by decide) (List.mem_of_head? plus)
    cases digit
  unfold parseUnsigned
  dsimp only
  rw [if_neg unsigned, if_neg Nat.toDigits_ne_nil, foldlM_parseDigit_toDigits small]

/-! ### White space -/

/-- `char::is_whitespace`. -/
def isWhitespace (c : Char) : Bool :=
  (9 ≤ c.toNat && c.toNat ≤ 13) || (0x2000 ≤ c.toNat && c.toNat ≤ 0x200a) ||
    c.toNat ∈ [0x20, 0x85, 0xa0, 0x1680, 0x2028, 0x2029, 0x202f, 0x205f, 0x3000]

def trim (text : Text) : Text := (text.dropWhile isWhitespace).rdropWhile isWhitespace

def Blank (text : Text) : Prop := ∀ c ∈ text, isWhitespace c = true

/-- No white space at either end. -/
def Bare (text : Text) : Prop :=
  (∀ c, text.head? = some c → isWhitespace c = false) ∧ ∀ c, text.getLast? = some c → isWhitespace c = false

theorem trim_padded {before text after : Text} (left : Blank before) (right : Blank after) (bare : Bare text) :
    trim (before ++ (text ++ after)) = text := by
  unfold trim
  rw [List.dropWhile_append_of_pos left]
  cases text with
  | nil => rw [List.nil_append, List.dropWhile_eq_nil_iff.mpr right, List.rdropWhile_nil]
  | cons c rest =>
    have kept := bare.1 c rfl
    have last : List.rdropWhile isWhitespace (c :: rest) = c :: rest := by
      apply List.rdropWhile_eq_self_iff.mpr
      intro some
      rw [bare.2 _ (List.getLast?_eq_some_getLast some)]
      decide
    rw [List.cons_append, List.dropWhile_cons_of_neg (by simp [kept]), ← List.cons_append, List.rdropWhile,
      List.reverse_append, List.dropWhile_append_of_pos (by simpa [Blank] using right)]
    exact last

theorem trim_blank_left {before text : Text} (left : Blank before) (bare : Bare text) :
    trim (before ++ text) = text := by
  have padded := trim_padded left (List.forall_mem_nil _) bare
  rwa [List.append_nil] at padded

theorem trim_blank_right {text after : Text} (right : Blank after) (bare : Bare text) : trim (text ++ after) = text :=
  trim_padded (List.forall_mem_nil _) right bare

theorem Bare.between {first last : Text} (left : Bare first) (right : Bare last) (some : first ≠ [])
    (more : last ≠ []) (middle : Text) : Bare (first ++ (middle ++ last)) := by
  constructor
  · intro c head
    rw [List.head?_append_of_ne_nil _ some] at head
    exact left.1 c head
  · intro c end_
    rw [← List.append_assoc, List.getLast?_append_of_ne_nil _ more] at end_
    exact right.2 c end_

theorem not_isWhitespace_of_isDigit {c : Char} (digit : c.isDigit = true) : isWhitespace c = false := by
  have range : 48 ≤ c.toNat ∧ c.toNat ≤ 57 := by
    simpa [Char.isDigit, UInt32.le_iff_toNat_le] using digit
  apply Bool.eq_false_iff.mpr
  intro white
  simp [isWhitespace] at white
  omega

theorem bare_toDigits (n : Nat) : Bare (Nat.toDigits 10 n) := by
  have digit (c : Char) (member : c ∈ Nat.toDigits 10 n) : isWhitespace c = false :=
    not_isWhitespace_of_isDigit (Nat.isDigit_of_mem_toDigits (by decide) (by decide) member)
  exact ⟨fun c head => digit c (List.mem_of_head? head), fun c last => digit c (List.mem_of_getLast? last)⟩

end NoisyShuttle
