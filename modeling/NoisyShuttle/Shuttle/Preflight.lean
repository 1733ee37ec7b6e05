import NoisyShuttle.Lib.Text

/-!
# The preflight option

`parse_preflight_bounds`, and what `run_client` makes of its result. `usize` is the number of values of
the type.
-/

namespace NoisyShuttle.Shuttle

section

variable (usize : Nat)

def parseMin (a : Text) : Except String Nat :=
  if a = [] then .ok 0
  else match parseUnsigned usize a with
    | some n => .ok n
    | none => .error "Min present but not integer"

def parseMax (b : Text) : Except String (Option Nat) :=
  if b = [] then .ok none
  else match parseUnsigned usize b with
    | some n => .ok (some n)
    | none => .error "Max present but not integer"

def parseMinMax (a b : Text) : Except String (Nat × Option Nat) := do
  let a ← parseMin usize (trim a)
  let b ← parseMax usize (trim b)
  if a = 0 ∧ b ≠ some 0 then .error "Min cannot be 0 if max is not 0" else .ok (a, b)

def parsePreflightBounds (s : Text) : Except String (Nat × Option Nat) :=
  let s := trim s
  if s = [] then .ok (0, some 0)
  else match parseUnsigned usize s with
    | some n => .ok (n, some n)
    | none =>
      match breakOn [':'] s with
      | some (a, b) => parseMinMax usize a b
      | none => .error "Unrecognized bounds, expected format: NUM, MIN:MAX, MIN:, :MAX"

inductive Started where
  | adHoc
  | flighting (min : Nat) (max : Option Nat)
  | rejected (message : String)
  | panicked
  deriving DecidableEq

/-- The assertion of `Preflighter::new_flighting`. -/
def newFlighting (min : Nat) (max : Option Nat) : Started :=
  if 0 < min ∧ min ≤ max.getD (usize - 1) then .flighting min max else .panicked

def runClient (preflight : Nat × Option Nat) : Started :=
  if preflight = (0, some 0) then .adHoc else newFlighting usize preflight.1 preflight.2

/-- The client started with `s` on its command line. -/
def startClient (s : Text) : Started :=
  match parsePreflightBounds usize s with
  | .ok preflight => runClient usize preflight
  | .error message => .rejected message

/-- Bounds of two integers of which the second is the smaller one. -/
def reversed (s : Text) : Bool :=
  match breakOn [':'] (trim s) with
  | none => false
  | some (a, b) =>
    match parseUnsigned usize (trim a), parseUnsigned usize (trim b) with
    | some min, some max => max < min
    | _, _ => false

end

/-- No preflight, or a range that is not empty and starts above zero. -/
def Usable : Nat × Option Nat → Prop
  | (min, max) => (min, max) = (0, some 0) ∨ 0 < min ∧ ∀ bound, max = some bound → min ≤ bound

variable {usize : Nat}

theorem parseMin_ok {a : Text} {min : Nat} (h : parseMin usize a = .ok min) :
    min = 0 ∨ parseUnsigned usize a = some min := by
  unfold parseMin at h
  split at h
  · exact .inl (Except.ok.inj h).symm
  · split at h
    · next n parsed => exact .inr (by rw [parsed, Except.ok.inj h])
    · cases h

theorem parseMax_ok {b : Text} {max : Option Nat} (h : parseMax usize b = .ok max) :
    max = none ∨ parseUnsigned usize b = max := by
  unfold parseMax at h
  split at h
  · exact .inl (Except.ok.inj h).symm
  · split at h
    · next n parsed => exact .inr (by rw [parsed, Except.ok.inj h])
    · cases h

/-- What accepted bounds look like: zero twice, one number, or a minimum above zero with its maximum. -/
theorem parsePreflightBounds_ok {s : Text} {min : Nat} {max : Option Nat}
    (h : parsePreflightBounds usize s = .ok (min, max)) :
    (min, max) = (0, some 0) ∨ 0 < min ∧ min < usize ∧
      (max = some min ∨ ∃ a b, breakOn [':'] (trim s) = some (a, b) ∧ parseUnsigned usize (trim a) = some min ∧
        (max = none ∨ parseUnsigned usize (trim b) = max)) := by
  unfold parsePreflightBounds at h
  dsimp only at h
  by_cases blank : trim s = []
  · rw [if_pos blank] at h
    exact .inl (Except.ok.inj h).symm
  rw [if_neg blank] at h
  cases number : parseUnsigned usize (trim s) with
  | some n =>
    rw [number] at h
    cases h
    rcases Nat.eq_zero_or_pos min with rfl | positive
    · exact .inl rfl
    · exact .inr ⟨positive, parseUnsigned_lt number, .inl rfl⟩
  | none =>
    rw [number] at h
    cases broken : breakOn [':'] (trim s) with
    | none =>
      rw [broken] at h
      cases h
    | some pair =>
      obtain ⟨a, b⟩ := pair
      rw [broken] at h
      dsimp only at h
      unfold parseMinMax at h
      cases lower : parseMin usize (trim a) with
      | error message =>
        rw [lower] at h
        cases h
      | ok least =>
        cases upper : parseMax usize (trim b) with
        | error message =>
          rw [lower, upper] at h
          cases h
        | ok most =>
          rw [lower, upper] at h
          change (if least = 0 ∧ most ≠ some 0 then _ else _) = _ at h
          split at h
          · cases h
          · next fine =>
            cases h
            rcases Nat.eq_zero_or_pos min with rfl | positive
            · left
              rw [not_not.mp (fun other => fine ⟨rfl, other⟩)]
            · have parsed := (parseMin_ok lower).resolve_left (by omega)
              exact .inr ⟨positive, parseUnsigned_lt parsed, .inr ⟨a, b, rfl, parsed, parseMax_ok upper⟩⟩

theorem usable_of_not_reversed {s : Text} {min : Nat} {max : Option Nat} (ordered : reversed usize s = false)
    (h : parsePreflightBounds usize s = .ok (min, max)) : Usable (min, max) := by
  rcases parsePreflightBounds_ok h with zero | ⟨positive, -, rfl | ⟨a, b, broken, lower, upper⟩⟩
  · exact .inl zero
  · exact .inr ⟨positive, fun bound same => Nat.le_of_eq (Option.some.inj same)⟩
  · refine .inr ⟨positive, ?_⟩
    rintro bound rfl
    have parsed := upper.resolve_left nofun
    simp only [reversed, broken, lower, parsed, decide_eq_false_iff_not] at ordered
    exact Nat.not_lt.mp ordered

theorem startClient_of_usable {s : Text}
    (usable : ∀ min max, parsePreflightBounds usize s = .ok (min, max) → Usable (min, max)) :
    startClient usize s ≠ .panicked := by
  unfold startClient
  split
  · next preflight parsed =>
    obtain ⟨min, max⟩ := preflight
    unfold runClient
    by_cases zero : (min, max) = (0, some 0)
    · rw [if_pos zero]
      nofun
    · rw [if_neg zero]
      have bounds := (usable min max parsed).resolve_left zero
      have small := ((parsePreflightBounds_ok parsed).resolve_left zero).2.1
      have fits : min ≤ max.getD (usize - 1) := by
        cases max with
        | none => exact Nat.le_sub_one_of_lt small
        | some bound => exact bounds.2 bound rfl
      unfold newFlighting
      rw [if_pos ⟨bounds.1, fits⟩]
      nofun
  · nofun

/-- Reversed bounds are accepted as they are. -/
theorem parsePreflightBounds_reversed {s : Text} (h : reversed usize s = true) :
    ∃ min max, parsePreflightBounds usize s = .ok (min, some max) ∧ max < min := by
  unfold reversed at h
  split at h
  · cases h
  · next a b broken =>
    split at h
    · next min max lower upper =>
      have less : max < min := of_decide_eq_true h
      have colon : ':' ∈ trim s := by
        rw [breakOn_eq_append broken]
        simp
      have first : trim a ≠ [] := by
        intro none
        rw [none] at lower
        cases lower
      have second : trim b ≠ [] := by
        intro none
        rw [none] at upper
        cases upper
      have accepted : parseMinMax usize a b = .ok (min, some max) := by
        simp only [parseMinMax, parseMin, if_neg first, lower, parseMax, if_neg second, upper]
        exact if_neg (fun zero => by omega)
      refine ⟨min, max, ?_, less⟩
      unfold parsePreflightBounds
      dsimp only
      rw [if_neg (List.ne_nil_of_mem colon), parseUnsigned_of_mem (by decide) (by decide) colon, broken]
      exact accepted
    · cases h

/-! ## Decimal bounds -/

section

variable {a b : Nat} {before after left right : Text}

theorem colon_not_mem (a : Nat) (after : Blank left) : ':' ∉ Nat.toDigits 10 a ++ left := by
  intro member
  rcases List.mem_append.mp member with digit | space
  · have odd := Nat.isDigit_of_mem_toDigits (by decide) (by decide) digit
    cases odd
  · have odd := after _ space
    cases odd

theorem bare_colon : Bare [':'] :=
  ⟨fun c head => by cases head; decide, fun c last => by cases last; decide⟩

theorem parse_number (small : a < usize) (first : Blank before) (last : Blank after) :
    parsePreflightBounds usize (before ++ (Nat.toDigits 10 a ++ after)) = .ok (a, some a) := by
  unfold parsePreflightBounds
  dsimp only
  rw [trim_padded first last (bare_toDigits a), if_neg Nat.toDigits_ne_nil, parseUnsigned_toDigits small]

/-- A text that is trimmed to a number, a colon and more. -/
theorem parse_split {s rest : Text} (middle : Blank left)
    (trimmed : trim s = Nat.toDigits 10 a ++ (left ++ ':' :: rest)) :
    parsePreflightBounds usize s = parseMinMax usize (Nat.toDigits 10 a ++ left) rest := by
  have colon : ':' ∈ trim s := by
    rw [trimmed]
    simp
  have broken : breakOn [':'] (trim s) = some (Nat.toDigits 10 a ++ left, rest) := by
    rw [trimmed, ← List.append_assoc]
    exact breakOn_of_not_mem (colon_not_mem a middle) rest
  unfold parsePreflightBounds
  dsimp only
  rw [if_neg (List.ne_nil_of_mem colon), parseUnsigned_of_mem (by decide) (by decide) colon, broken]

theorem parseMin_number (small : a < usize) (middle : Blank left) :
    parseMin usize (trim (Nat.toDigits 10 a ++ left)) = .ok a := by
  unfold parseMin
  rw [trim_blank_right middle (bare_toDigits a), if_neg Nat.toDigits_ne_nil, parseUnsigned_toDigits small]

theorem parse_range (positive : 0 < a) (ordered : a ≤ b) (small : b < usize) (first : Blank before)
    (middle : Blank left) (behind : Blank right) (last : Blank after) :
    parsePreflightBounds usize
      (before ++ (Nat.toDigits 10 a ++ (left ++ ':' :: (right ++ (Nat.toDigits 10 b ++ after))))) =
      .ok (a, some b) := by
  have bare : Bare (Nat.toDigits 10 a ++ (left ++ ':' :: right ++ Nat.toDigits 10 b)) :=
    (bare_toDigits a).between (bare_toDigits b) Nat.toDigits_ne_nil Nat.toDigits_ne_nil _
  have trimmed := trim_padded first last bare
  simp only [List.append_assoc, List.cons_append] at trimmed
  have upper : parseMax usize (trim (right ++ Nat.toDigits 10 b)) = .ok (some b) := by
    unfold parseMax
    rw [trim_blank_left behind (bare_toDigits b), if_neg Nat.toDigits_ne_nil, parseUnsigned_toDigits small]
  rw [parse_split middle trimmed]
  simp only [parseMinMax, parseMin_number (Nat.lt_of_le_of_lt ordered small) middle, upper]
  exact if_neg (fun zero => by omega)

theorem parse_unbounded (positive : 0 < a) (small : a < usize) (first : Blank before) (middle : Blank left)
    (last : Blank after) :
    parsePreflightBounds usize (before ++ (Nat.toDigits 10 a ++ (left ++ ':' :: after))) = .ok (a, none) := by
  have bare : Bare (Nat.toDigits 10 a ++ (left ++ [':'])) :=
    (bare_toDigits a).between bare_colon Nat.toDigits_ne_nil nofun _
  have trimmed := trim_padded first last bare
  simp only [List.append_assoc, List.cons_append, List.nil_append] at trimmed
  rw [parse_split middle trimmed]
  simp only [parseMinMax, parseMin_number small middle]
  exact if_neg (fun zero => by omega)

end

/-- Bounds are usable, and the client starts, unless they are reversed; decimal bounds are read as they
are meant. -/
theorem preflight_bounds_iff (usize : Nat) :
    (∀ s, (∀ min max, parsePreflightBounds usize s = .ok (min, max) → Usable (min, max)) ∧
        startClient usize s ≠ .panicked ↔ reversed usize s = false) ∧
      ∀ a b, 0 < a → a ≤ b → b < usize → ∀ before left right after,
        Blank before → Blank left → Blank right → Blank after →
        parsePreflightBounds usize (before ++ (Nat.toDigits 10 a ++ after)) = .ok (a, some a) ∧
        parsePreflightBounds usize
            (before ++ (Nat.toDigits 10 a ++ (left ++ ':' :: (right ++ (Nat.toDigits 10 b ++ after))))) =
          .ok (a, some b) ∧
        parsePreflightBounds usize (before ++ (Nat.toDigits 10 a ++ (left ++ ':' :: after))) = .ok (a, none) := by
  constructor
  · intro s
    constructor
    · rintro ⟨usable, -⟩
      apply Bool.eq_false_iff.mpr
      intro backwards
      obtain ⟨min, max, parsed, less⟩ := parsePreflightBounds_reversed backwards
      rcases usable min (some max) parsed with zero | ⟨-, ordered⟩
      · cases zero
        exact absurd less (Nat.lt_irrefl 0)
      · exact absurd less (Nat.not_lt.mpr (ordered max rfl))
    · intro ordered
      have usable : ∀ min max, parsePreflightBounds usize s = .ok (min, max) → Usable (min, max) :=
        fun min max => usable_of_not_reversed ordered
      exact ⟨usable, startClient_of_usable usable⟩
  · intro a b positive ordered small before left right after first middle behind last
    have fits := Nat.lt_of_le_of_lt ordered small
    exact ⟨parse_number fits first last, parse_range positive ordered small first middle behind last,
      parse_unbounded positive fits first middle last⟩

/-- A typing error on the command line. -/
theorem preflight_bounds_reversed :
    parsePreflightBounds (2 ^ 64) "5:3".toList = .ok (5, some 3) ∧ ¬ Usable (5, some 3) ∧
      startClient (2 ^ 64) "5:3".toList = .panicked := by
  refine ⟨by decide, ?_, by decide⟩
  rintro (zero | ⟨-, ordered⟩)
  · cases zero
  · exact absurd (ordered 3 rfl) (by decide)

end NoisyShuttle.Shuttle
