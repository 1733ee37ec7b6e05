import Mathlib.Data.List.Basic

/-!
# A stream carried by items

The sender cuts a stream into items, the receiver takes them in order and passes on what they carry.
Nothing is lost or reordered, and nothing follows the item that ends the stream.
-/

namespace NoisyShuttle

/-- What the sender has not cut yet, the items in flight, and what the receiver has passed on. -/
structure Conduit (α F : Type*) where
  unread : List α
  queue : List F
  delivered : List α
  deriving DecidableEq

namespace Conduit

variable {α F : Type*}

def fresh (stream : List α) : Conduit α F := ⟨stream, [], []⟩

def skip (n : Nat) (c : Conduit α F) : Conduit α F := { c with unread := c.unread.drop n }

def push (item : F) (c : Conduit α F) : Conduit α F := { c with queue := c.queue ++ [item] }

def pop (c : Conduit α F) : Conduit α F := { c with queue := c.queue.tail }

def deliver (part : List α) (c : Conduit α F) : Conduit α F := { c with delivered := c.delivered ++ part }

section
variable (payload : F → List α)

def inFlight (c : Conduit α F) : List α := c.queue.flatMap payload

def undelivered (c : Conduit α F) : List α := c.inFlight payload ++ c.unread

def whole (c : Conduit α F) : List α := c.delivered ++ c.undelivered payload

end

/-- `final` items end the stream, and only `fit` items are sent. -/
inductive Step (payload : F → List α) (final fit : F → Prop) (c : Conduit α F) : Conduit α F → Prop
  | cut {n : Nat} {item : F} (fits : fit item) (part : payload item = c.unread.take n)
    (rest : final item → c.unread.drop n = []) : Step payload final fit c ((c.skip n).push item)
  | take {item : F} {rest : List F} (head : c.queue = item :: rest) :
    Step payload final fit c (c.pop.deliver (payload item))

variable {payload : F → List α} {final fit : F → Prop} {c d : Conduit α F} {total : List α}

theorem undelivered_cut {n : Nat} {item : F} (part : payload item = c.unread.take n) :
    ((c.skip n).push item).undelivered payload = c.undelivered payload := by
  simp only [undelivered, inFlight, push, skip, List.flatMap_append, List.flatMap_singleton, part,
    List.append_assoc, List.take_append_drop]

theorem undelivered_take {item : F} {rest : List F} (head : c.queue = item :: rest) :
    c.undelivered payload = payload item ++ (c.pop.deliver (payload item)).undelivered payload := by
  simp only [undelivered, inFlight, deliver, pop, head, List.flatMap_cons, List.tail_cons, List.append_assoc]

theorem whole_step (h : Step payload final fit c d) : d.whole payload = c.whole payload := by
  cases h with
  | cut fits part rest =>
    rw [whole, undelivered_cut part]
    rfl
  | take head =>
    rw [whole, whole, undelivered_take head, ← List.append_assoc]
    rfl

theorem undelivered_nil_step (h : Step payload final fit c d) (none : c.undelivered payload = []) :
    d.undelivered payload = [] := by
  cases h with
  | cut fits part rest => rw [undelivered_cut part, none]
  | take head =>
    rw [undelivered_take head] at none
    exact (List.append_eq_nil_iff.mp none).2

theorem undelivered_step (h : Step payload final fit c d) (same : d.delivered = c.delivered) :
    d.undelivered payload = c.undelivered payload := by
  have kept := whole_step h
  rw [whole, whole, same] at kept
  exact List.append_cancel_left kept

/-- The stream `total` on its way. -/
structure Carries (payload : F → List α) (final fit : F → Prop) (total : List α) (c : Conduit α F) : Prop where
  whole : c.whole payload = total
  fits : ∀ item ∈ c.queue, fit item
  ends : ∀ before item after, c.queue = before ++ item :: after → final item →
    after.flatMap payload ++ c.unread = []

theorem Carries.fresh (total : List α) : Carries payload final fit total (.fresh total) := by
  refine ⟨rfl, nofun, ?_⟩
  intro before item after split
  cases before <;> cases split

theorem Carries.step (carries : Carries payload final fit total c) (h : Step payload final fit c d) :
    Carries payload final fit total d := by
  refine ⟨(whole_step h).trans carries.whole, ?_, ?_⟩
  · cases h with
    | cut fits part rest =>
      intro item member
      rcases List.mem_append.mp member with old | new
      · exact carries.fits item old
      · rw [List.mem_singleton.mp new]
        exact fits
    | take head => exact fun item member => carries.fits item (List.mem_of_mem_tail member)
  · intro before item after split last
    cases h with
    | @cut n sent fits part rest =>
      rcases List.eq_nil_or_concat after with rfl | ⟨earlier, newest, rfl⟩
      · -- the item is the one just sent
        obtain ⟨-, same⟩ := List.append_inj' split rfl
        cases same
        exact rest last
      · have both : c.queue ++ [sent] = (before ++ item :: earlier) ++ [newest] := by
          rw [List.append_assoc]
          simpa [push, skip] using split
        obtain ⟨old, same⟩ := List.append_inj' both rfl
        cases same
        obtain ⟨none, empty⟩ := List.append_eq_nil_iff.mp (carries.ends before item earlier old last)
        rw [empty] at part
        simp [push, skip, none, empty, part]
    | @take first rest head =>
      have longer : c.queue = (first :: before) ++ item :: after := by
        have tail : rest = before ++ item :: after := by simpa [pop, deliver, head] using split
        rw [head, tail]
        rfl
      exact carries.ends _ item after longer last

/-- Once the last item is taken there is nothing left. -/
theorem Carries.ended {item : F} {rest : List F} (carries : Carries payload final fit total c)
    (head : c.queue = item :: rest) (last : final item) :
    (c.pop.deliver (payload item)).undelivered payload = [] := by
  have none := carries.ends [] item rest head last
  rw [undelivered, inFlight, pop, deliver, head]
  exact none

end Conduit
end NoisyShuttle
