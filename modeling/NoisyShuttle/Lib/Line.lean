import Mathlib.Data.List.Chain
import Mathlib.Logic.Relation

/-!
# Rows of buffers

A stream passes through a row of buffers, from the first to the last. Each hands on what it holds and, once
it holds nothing more, that its writer has finished. A row can be cut: what comes before the cut is lost, and
the end takes its place.
-/

namespace NoisyShuttle

structure Cell (α : Type*) where
  queue : List α
  ended : Bool
  deriving DecidableEq

namespace Cell

variable {α : Type*}

def empty : Cell α := ⟨[], false⟩

def holding (items : List α) : Cell α := ⟨items, false⟩

def pull (n : Nat) (a b : Cell α) : Option (Cell α × Cell α) :=
  if 0 < n ∧ n ≤ a.queue.length ∧ b.ended = false then
    some ({ a with queue := a.queue.drop n }, { b with queue := b.queue ++ a.queue.take n })
  else none

def pass (a b : Cell α) : Option (Cell α) :=
  if a.ended = true ∧ a.queue = [] ∧ b.ended = false then some { b with ended := true } else none

def cut (n : Nat) (c : Cell α) : Cell α := ⟨c.queue.take n, true⟩

/-- The cell after `items` that it held before. -/
def after (items : List α) (c : Cell α) : Cell α := { c with queue := items ++ c.queue }

variable {n : Nat} {a b a' b' : Cell α}

theorem pull_eq_some : pull n a b = some (a', b') ↔
    (0 < n ∧ n ≤ a.queue.length ∧ b.ended = false) ∧
      a' = { a with queue := a.queue.drop n } ∧ b' = { b with queue := b.queue ++ a.queue.take n } := by
  unfold pull
  split
  · next can => simp [can, eq_comm]
  · next cannot => simp [cannot]

theorem pass_eq_some : pass a b = some b' ↔
    (a.ended = true ∧ a.queue = [] ∧ b.ended = false) ∧ b' = { b with ended := true } := by
  unfold pass
  split
  · next can => simp [can, eq_comm]
  · next cannot => simp [cannot]

theorem pull_length (h : pull n a b = some (a', b')) :
    a'.ended = a.ended ∧ b'.ended = b.ended ∧ a'.queue.length + n = a.queue.length ∧
      b'.queue.length = b.queue.length + n := by
  obtain ⟨⟨-, fits, -⟩, rfl, rfl⟩ := pull_eq_some.mp h
  refine ⟨rfl, rfl, ?_, ?_⟩
  · rw [List.length_drop, Nat.sub_add_cancel fits]
  · rw [List.length_append, List.length_take, Nat.min_eq_left fits]

theorem pull_empty (void : a.queue = []) : pull n a b = none := by
  unfold pull
  rw [if_neg]
  rintro ⟨positive, fits, -⟩
  rw [void, List.length_nil] at fits
  omega

theorem pass_queue (h : pass a b = some b') : b'.ended = true ∧ b'.queue = b.queue := by
  obtain ⟨-, rfl⟩ := pass_eq_some.mp h
  exact ⟨rfl, rfl⟩

theorem pull_after (items : List α) (h : pull n a b = some (a', b')) :
    pull n a (b.after items) = some (a', b'.after items) := by
  obtain ⟨can, rfl, rfl⟩ := pull_eq_some.mp h
  refine pull_eq_some.mpr ⟨can, rfl, ?_⟩
  simp only [after, List.append_assoc]

theorem pass_after (items : List α) (h : pass a b = some b') : pass a (b.after items) = some (b'.after items) := by
  obtain ⟨can, rfl⟩ := pass_eq_some.mp h
  exact pass_eq_some.mpr ⟨can, rfl⟩

/-- Nothing can be pulled from a cell only if it is empty or the next one has ended. -/
theorem queue_nil_of_pull (runs : b.ended = false) (h : pull 1 a b = none) : a.queue = [] := by
  unfold pull at h
  split at h
  · cases h
  · next cannot =>
    rw [← List.length_eq_zero_iff]
    simp only [runs, and_true] at cannot
    omega

theorem ended_of_pass (ended : a.ended = true) (void : a.queue = []) (h : pass a b = none) : b.ended = true := by
  unfold pass at h
  split at h
  · cases h
  · next cannot => simpa [ended, void] using cannot

end Cell

namespace Line

variable {α : Type*}

/-- What is on its way, the oldest first. -/
def contents : List (Cell α) → List α
  | [] => []
  | c :: rest => contents rest ++ c.queue

/-- The end follows everything else. -/
def Ordered (l : List (Cell α)) : Prop := l.IsChain fun a b => b.ended = true → a.ended = true ∧ a.queue = []

inductive Step : List (Cell α) → List (Cell α) → Prop
  | pull {n a b a' b' rest} : Cell.pull n a b = some (a', b') → Step (a :: b :: rest) (a' :: b' :: rest)
  | pass {a b b' rest} : Cell.pass a b = some b' → Step (a :: b :: rest) (a :: b' :: rest)
  | later {c l l'} : Step l l' → Step (c :: l) (c :: l')

/-- Hops that the items have before them, and ends that are not passed on. -/
def weight : List (Cell α) → Nat
  | [] => 0
  | c :: rest => c.queue.length * rest.length + (!c.ended).toNat + weight rest

/-- Somewhere the row has ended, and from there on it holds a first part of `total`. -/
def Severed (total : List α) : List (Cell α) → Prop
  | [] => False
  | c :: rest => (c.ended = true ∧ contents (c :: rest) <+: total) ∨ Severed total rest

/-- The row is a cut of `total`, or all of it. -/
def Carries (total : List α) (l : List (Cell α)) : Prop := contents l = total ∨ Severed total l

variable {a b c : Cell α} {l l' rest : List (Cell α)} {total : List α}

/-! ## One step -/

theorem contents_step (h : Step l l') : contents l' = contents l := by
  induction h with
  | pull pulled =>
    obtain ⟨-, rfl, rfl⟩ := Cell.pull_eq_some.mp pulled
    simp only [contents, List.append_assoc, List.take_append_drop]
  | pass passed =>
    obtain ⟨-, rfl⟩ := Cell.pass_eq_some.mp passed
    rfl
  | later _ ih => rw [contents, contents, ih]

theorem length_step (h : Step l l') : l'.length = l.length := by
  induction h with
  | pull => rfl
  | pass => rfl
  | later _ ih => rw [List.length_cons, List.length_cons, ih]

theorem weight_step (h : Step l l') : weight l' < weight l := by
  induction h with
  | @pull n a b a' b' rest pulled =>
    obtain ⟨⟨positive, fits, -⟩, rfl, rfl⟩ := Cell.pull_eq_some.mp pulled
    simp only [weight, List.length_drop, List.length_append, List.length_take, List.length_cons, Nat.min_eq_left fits]
    have hops : a.queue.length * (rest.length + 1) =
        (a.queue.length - n) * (rest.length + 1) + n * (rest.length + 1) := by
      rw [← Nat.add_mul, Nat.sub_add_cancel fits]
    have moved : (b.queue.length + n) * rest.length = b.queue.length * rest.length + n * rest.length :=
      Nat.add_mul _ _ _
    have hop : n * (rest.length + 1) = n * rest.length + n := Nat.mul_succ _ _
    omega
  | pass passed =>
    obtain ⟨⟨-, -, runs⟩, rfl⟩ := Cell.pass_eq_some.mp passed
    simp only [weight, runs, List.length_cons, Bool.not_true, Bool.not_false, Bool.toNat_false, Bool.toNat_true]
    omega
  | later h ih =>
    rw [weight, weight, length_step h]
    omega

theorem head_step (h : Step (a :: rest) l) : ∃ a' rest', l = a' :: rest' ∧ a'.ended = a.ended := by
  cases h with
  | pull pulled =>
    obtain ⟨-, rfl, rfl⟩ := Cell.pull_eq_some.mp pulled
    exact ⟨_, _, rfl, rfl⟩
  | pass => exact ⟨_, _, rfl, rfl⟩
  | later => exact ⟨_, _, rfl, rfl⟩

theorem ordered_step (h : Step l l') (ordered : Ordered l) : Ordered l' := by
  induction h with
  | pull pulled =>
    obtain ⟨⟨-, -, runs⟩, rfl, rfl⟩ := Cell.pull_eq_some.mp pulled
    obtain ⟨-, behind⟩ := List.isChain_cons_cons.mp ordered
    obtain ⟨before, rest⟩ := List.isChain_cons.mp behind
    refine List.isChain_cons_cons.mpr ⟨?_, List.isChain_cons.mpr ⟨?_, rest⟩⟩
    · intro ended
      rw [runs] at ended
      cases ended
    · intro c head ended
      rw [(before c head ended).1] at runs
      cases runs
  | pass passed =>
    obtain ⟨⟨ended, none, -⟩, rfl⟩ := Cell.pass_eq_some.mp passed
    obtain ⟨-, behind⟩ := List.isChain_cons_cons.mp ordered
    obtain ⟨before, rest⟩ := List.isChain_cons.mp behind
    refine List.isChain_cons_cons.mpr ⟨fun _ => ⟨ended, none⟩, List.isChain_cons.mpr ⟨?_, rest⟩⟩
    intro c head far
    exact ⟨rfl, (before c head far).2⟩
  | @later c l l' h ih =>
    cases l with
    | nil => cases h
    | cons b rest =>
      obtain ⟨before, behind⟩ := List.isChain_cons_cons.mp ordered
      have after := ih behind
      obtain ⟨b', rest', rfl, same⟩ := head_step h
      refine List.isChain_cons_cons.mpr ⟨?_, after⟩
      intro ended
      rw [same] at ended
      exact before ended

/-- Nothing passes a cut. -/
theorem severed_step (h : Step l l') (severed : Severed total l) : Severed total l' := by
  induction h with
  | @pull n a b a' b' rest pulled =>
    have same : contents (a' :: b' :: rest) = contents (a :: b :: rest) := contents_step (.pull pulled)
    obtain ⟨⟨-, -, runs⟩, rfl, rfl⟩ := Cell.pull_eq_some.mp pulled
    rcases severed with ⟨ended, part⟩ | ⟨ended, -⟩ | later
    · exact Or.inl ⟨ended, same ▸ part⟩
    · rw [runs] at ended
      cases ended
    · exact Or.inr (Or.inr later)
  | @pass a b b' rest passed =>
    obtain ⟨⟨-, -, runs⟩, rfl⟩ := Cell.pass_eq_some.mp passed
    rcases severed with ⟨ended, part⟩ | ⟨ended, -⟩ | later
    · exact Or.inl ⟨ended, part⟩
    · rw [runs] at ended
      cases ended
    · exact Or.inr (Or.inr later)
  | later h ih =>
    rcases severed with ⟨ended, part⟩ | later
    · refine Or.inl ⟨ended, ?_⟩
      rw [contents, contents_step h]
      exact part
    · exact Or.inr (ih later)

/-! ## Several steps -/

open Relation (ReflTransGen TransGen)

theorem contents_steps (h : ReflTransGen Step l l') : contents l' = contents l := by
  induction h with
  | refl => rfl
  | tail _ step ih => rw [contents_step step, ih]

theorem ordered_steps (h : ReflTransGen Step l l') (ordered : Ordered l) : Ordered l' := by
  induction h with
  | refl => exact ordered
  | tail _ step ih => exact ordered_step step ih

theorem carries_steps (h : ReflTransGen Step l l') (carries : Carries total l) : Carries total l' := by
  induction h with
  | refl => exact carries
  | tail _ step ih =>
    rcases ih with whole | severed
    · exact Or.inl ((contents_step step).trans whole)
    · exact Or.inr (severed_step step severed)

theorem weight_steps (h : TransGen Step l l') : weight l' < weight l := by
  induction h with
  | single step => exact weight_step step
  | tail _ step ih => exact (weight_step step).trans ih

/-! ## The ends of a row -/

theorem contents_append (l rest : List (Cell α)) : contents (l ++ rest) = contents rest ++ contents l := by
  induction l with
  | nil => rw [List.nil_append, contents, List.append_nil]
  | cons c l ih => rw [List.cons_append, contents, contents, ih, List.append_assoc]

theorem Severed.append (lost : List (Cell α)) (severed : Severed total l) : Severed total (lost ++ l) := by
  induction lost with
  | nil => exact severed
  | cons c lost ih => exact Or.inr ih

/-- The last part of a row holds a first part of the stream, or is severed itself. -/
theorem Carries.behind (lost : List (Cell α)) (carries : Carries total (lost ++ l)) :
    contents l <+: total ∨ Severed total l := by
  rcases carries with whole | severed
  · refine Or.inl ⟨contents lost, ?_⟩
    rw [← whole, contents_append]
  · induction lost with
    | nil => exact Or.inr severed
    | cons c lost ih =>
      rcases severed with ⟨-, part⟩ | later
      · have first : contents l <+: contents (c :: lost ++ l) :=
          ⟨contents (c :: lost), (contents_append (c :: lost) l).symm⟩
        exact Or.inl (first.trans part)
      · exact ih later

theorem Carries.last (lost : List (Cell α)) (carries : Carries total (lost ++ [c])) : c.queue <+: total := by
  rcases carries.behind lost with part | ⟨-, part⟩ | nothing
  · exact part
  · exact part
  · cases nothing

theorem Carries.cut {lost : List (Cell α)} (carries : Carries total (lost ++ c :: rest)) (n : Nat)
    (other : List (Cell α)) : Carries total (other ++ c.cut n :: rest) := by
  have less : contents (c.cut n :: rest) <+: contents (c :: rest) :=
    List.prefix_append_right_inj _ |>.mpr (List.take_prefix n c.queue)
  refine Or.inr (Severed.append other ?_)
  rcases carries.behind lost with part | ⟨-, part⟩ | later
  · exact Or.inl ⟨rfl, less.trans part⟩
  · exact Or.inl ⟨rfl, less.trans part⟩
  · exact Or.inr later

theorem Carries.write (items : List α) (runs : c.ended = false) (carries : Carries total (c :: rest)) :
    Carries (total ++ items) ({ c with queue := c.queue ++ items } :: rest) := by
  have longer : ∀ l : List (Cell α), Severed total l → Severed (total ++ items) l := by
    intro l severed
    induction l with
    | nil => exact severed
    | cons d l ih =>
      rcases severed with ⟨ended, part⟩ | later
      · exact Or.inl ⟨ended, part.trans (List.prefix_append total items)⟩
      · exact Or.inr (ih later)
  rcases carries with whole | ⟨ended, -⟩ | later
  · refine Or.inl ?_
    rw [← whole, contents, contents, List.append_assoc]
  · rw [runs] at ended
    cases ended
  · exact Or.inr (Or.inr (longer rest later))

theorem Carries.finish (carries : Carries total (c :: rest)) : Carries total ({ c with ended := true } :: rest) := by
  rcases carries with whole | ⟨ended, part⟩ | later
  · exact Or.inl whole
  · exact Or.inr (Or.inl ⟨rfl, part⟩)
  · exact Or.inr (Or.inr later)

/-- When the last cell has got the end, the others have passed it on and everything is in the last. -/
theorem Ordered.arrived (ordered : Ordered (l ++ [c])) (ended : c.ended = true) :
    contents (l ++ [c]) = c.queue ∧ ∀ d ∈ l, d.ended = true ∧ d.queue = [] := by
  induction l with
  | nil =>
    refine ⟨rfl, ?_⟩
    intro d member
    cases member
  | cons a rest ih =>
    obtain ⟨before, behind⟩ := List.isChain_cons.mp ordered
    obtain ⟨whole, all⟩ := ih behind
    have here : a.ended = true ∧ a.queue = [] := by
      cases rest with
      | nil => exact before c rfl ended
      | cons b rest => exact before b rfl (all b List.mem_cons_self).1
    refine ⟨?_, ?_⟩
    · rw [List.cons_append, contents, whole, here.2, List.append_nil]
    · intro d member
      rcases List.mem_cons.mp member with rfl | later
      · exact here
      · exact all d later

theorem Ordered.before (lost : List (Cell α)) (ordered : Ordered (lost ++ c :: rest)) (ended : c.ended = true) :
    ∀ d ∈ lost, d.ended = true ∧ d.queue = [] := by
  have first : Ordered (lost ++ [c] ++ rest) := by
    rw [List.append_assoc]
    exact ordered
  exact (Ordered.arrived first.left_of_append ended).2

end Line
end NoisyShuttle
