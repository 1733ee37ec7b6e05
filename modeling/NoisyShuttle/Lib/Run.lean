import Mathlib.Data.List.Basic

/-!
# Runs of event-driven machines

A machine is a partial step function: `none` when the event is not possible in the state. The
results here carry a property of one step to whole runs.
-/

namespace NoisyShuttle

variable {σ ε : Type*}

def run (step : σ → ε → Option σ) : σ → List ε → Option σ
  | s, [] => some s
  | s, event :: rest => (step s event).bind fun next => run step next rest

/-- Every step of the run meets `ok`, a condition on the state before it and its event. -/
def Guarded (step : σ → ε → Option σ) (ok : σ → ε → Prop) : σ → List ε → Prop
  | _, [] => True
  | s, event :: rest => ok s event ∧
    match step s event with
    | some next => Guarded step ok next rest
    | none => True

instance Guarded.decidable (step : σ → ε → Option σ) (ok : σ → ε → Prop) [∀ s event, Decidable (ok s event)] :
    ∀ s events, Decidable (Guarded step ok s events)
  | _, [] => .isTrue trivial
  | s, event :: rest =>
    have : Decidable (match step s event with
        | some next => Guarded step ok next rest
        | none => True) :=
      match step s event with
      | some next => Guarded.decidable step ok next rest
      | none => .isTrue trivial
    inferInstanceAs (Decidable (_ ∧ _))

def Reachable (step : σ → ε → Option σ) (init s : σ) : Prop :=
  ∃ events, run step init events = some s

theorem run_cons {step : σ → ε → Option σ} {s t : σ} {event : ε} {rest : List ε} :
    run step s (event :: rest) = some t ↔ ∃ next, step s event = some next ∧ run step next rest = some t := by
  simp [run, Option.bind_eq_some_iff]

/-- A state from which no event is possible is the last one. -/
theorem run_stuck {step : σ → ε → Option σ} {s t : σ} {events : List ε} (stuck : ∀ event, step s event = none)
    (h : run step s events = some t) : events = [] ∧ t = s := by
  cases events with
  | nil =>
    cases h
    exact ⟨rfl, rfl⟩
  | cons event rest =>
    obtain ⟨next, stepped, -⟩ := run_cons.mp h
    rw [stuck event] at stepped
    cases stepped

theorem run_append {step : σ → ε → Option σ} {s t : σ} {first second : List ε} :
    run step s (first ++ second) = some t ↔
      ∃ mid, run step s first = some mid ∧ run step mid second = some t := by
  induction first generalizing s with
  | nil => simp [run]
  | cons event rest ih =>
    simp only [List.cons_append, run_cons, ih]
    constructor
    · rintro ⟨next, stepped, mid, left, right⟩
      exact ⟨mid, ⟨next, stepped, left⟩, right⟩
    · rintro ⟨mid, ⟨next, stepped, left⟩, right⟩
      exact ⟨next, stepped, mid, left, right⟩

theorem run_lift {σ' ε' : Type*} {inner : σ → ε → Option σ} {outer : σ' → ε' → Option σ'} (embed : σ → σ')
    (rename : ε → ε')
    (mirror : ∀ s event next, inner s event = some next → outer (embed s) (rename event) = some (embed next))
    {s t : σ} {events : List ε} (h : run inner s events = some t) :
    run outer (embed s) (events.map rename) = some (embed t) := by
  induction events generalizing s with
  | nil =>
    cases h
    rfl
  | cons event rest ih =>
    obtain ⟨next, stepped, h⟩ := run_cons.mp h
    exact run_cons.mpr ⟨embed next, mirror s event next stepped, ih h⟩

/-- A property that guarded steps preserve holds after every guarded run. -/
theorem guarded_invariant {step : σ → ε → Option σ} {ok : σ → ε → Prop} {Inv : σ → Prop}
    (preserve : ∀ s event next, Inv s → ok s event → step s event = some next → Inv next)
    {s t : σ} {events : List ε} (start : Inv s) (guarded : Guarded step ok s events)
    (h : run step s events = some t) : Inv t := by
  induction events generalizing s with
  | nil =>
    cases h
    exact start
  | cons event rest ih =>
    obtain ⟨next, stepped, h⟩ := run_cons.mp h
    obtain ⟨okay, guarded⟩ := guarded
    rw [stepped] at guarded
    exact ih (preserve s event next start okay stepped) guarded h

def total (step : σ → ε → Option σ) (cost : σ → ε → Nat) : σ → List ε → Nat
  | _, [] => 0
  | s, event :: rest => cost s event +
    match step s event with
    | some next => total step cost next rest
    | none => 0

theorem total_eq_zero_iff {step : σ → ε → Option σ} {cost : σ → ε → Nat} {s : σ} {events : List ε} :
    total step cost s events = 0 ↔ Guarded step (fun s event => cost s event = 0) s events := by
  induction events generalizing s with
  | nil => simp [total, Guarded]
  | cons event rest ih =>
    simp only [total, Guarded, Nat.add_eq_zero_iff]
    cases step s event with
    | none => simp
    | some next => simp [ih]

/-- No step of the run is bad exactly if counting the bad ones gives zero. -/
theorem guarded_iff_total {step : σ → ε → Option σ} {bad : σ → ε → Bool} {s : σ} {events : List ε} :
    Guarded step (fun s event => bad s event = false) s events ↔
      total step (fun s event => (bad s event).toNat) s events = 0 := by
  have same : (fun s event => bad s event = false) = fun s event => (bad s event).toNat = 0 := by
    funext s event
    rw [Bool.toNat_eq_zero]
  rw [total_eq_zero_iff, same]

/-- An account that each step raises by what it costs. -/
theorem total_invariant {step : σ → ε → Option σ} {cost : σ → ε → Nat} {Inv : Nat → σ → Prop}
    (preserve : ∀ n s event next, Inv n s → step s event = some next → Inv (n + cost s event) next)
    {n : Nat} {s t : σ} {events : List ε} (start : Inv n s) (h : run step s events = some t) :
    Inv (n + total step cost s events) t := by
  induction events generalizing n s with
  | nil =>
    cases h
    exact start
  | cons event rest ih =>
    obtain ⟨next, stepped, h⟩ := run_cons.mp h
    have later := ih (preserve n s event next start stepped) h
    simpa [total, stepped, Nat.add_assoc] using later

/-- The same for an account of guarded steps. -/
theorem guarded_total {step : σ → ε → Option σ} {ok : σ → ε → Prop} {cost : σ → ε → Nat} {Inv : Nat → σ → Prop}
    (preserve : ∀ n s event next, Inv n s → ok s event → step s event = some next → Inv (n + cost s event) next)
    {n : Nat} {s t : σ} {events : List ε} (start : Inv n s) (guarded : Guarded step ok s events)
    (h : run step s events = some t) : Inv (n + total step cost s events) t := by
  induction events generalizing n s with
  | nil =>
    cases h
    exact start
  | cons event rest ih =>
    obtain ⟨next, stepped, h⟩ := run_cons.mp h
    obtain ⟨okay, guarded⟩ := guarded
    rw [stepped] at guarded
    have later := ih (preserve n s event next start okay stepped) guarded h
    simpa [total, stepped, Nat.add_assoc] using later

/-- A guard that holds wherever the steps of a guarded run begin. -/
theorem guarded_imp {step : σ → ε → Option σ} {Inv : σ → Prop} {ok ok' : σ → ε → Prop}
    (preserve : ∀ s event next, Inv s → ok s event → step s event = some next → Inv next)
    (meets : ∀ s event, Inv s → ok s event → ok' s event)
    {s : σ} {events : List ε} (start : Inv s) (guarded : Guarded step ok s events) :
    Guarded step ok' s events := by
  induction events generalizing s with
  | nil => trivial
  | cons event rest ih =>
    obtain ⟨okay, guarded⟩ := guarded
    refine ⟨meets s event start okay, ?_⟩
    cases stepped : step s event with
    | none => trivial
    | some next =>
      rw [stepped] at guarded
      exact ih (preserve s event next start okay stepped) guarded

/-- Two conditions that agree wherever a run may be. -/
theorem guarded_congr {step : σ → ε → Option σ} {Inv : σ → Prop} {ok ok' : σ → ε → Prop}
    (preserve : ∀ s event next, Inv s → step s event = some next → Inv next)
    (agree : ∀ s event next, Inv s → step s event = some next → (ok s event ↔ ok' s event))
    {s t : σ} {events : List ε} (start : Inv s) (h : run step s events = some t) :
    Guarded step ok s events ↔ Guarded step ok' s events := by
  induction events generalizing s with
  | nil => exact Iff.rfl
  | cons event rest ih =>
    obtain ⟨next, stepped, h⟩ := run_cons.mp h
    have later := ih (preserve s event next start stepped) h
    simp only [Guarded, stepped]
    exact and_congr (agree s event next start stepped) later

theorem guarded_and {step : σ → ε → Option σ} {ok ok' : σ → ε → Prop} {s : σ} {events : List ε}
    (left : Guarded step ok s events) (right : Guarded step ok' s events) :
    Guarded step (fun s event => ok s event ∧ ok' s event) s events := by
  induction events generalizing s with
  | nil => trivial
  | cons event rest ih =>
    obtain ⟨first, left⟩ := left
    obtain ⟨second, right⟩ := right
    refine ⟨⟨first, second⟩, ?_⟩
    cases stepped : step s event with
    | none => trivial
    | some next =>
      rw [stepped] at left right
      exact ih left right

theorem guarded_of_forall {step : σ → ε → Option σ} {ok : ε → Prop} {events : List ε}
    (all : ∀ event ∈ events, ok event) (s : σ) : Guarded step (fun _ event => ok event) s events := by
  induction events generalizing s with
  | nil => trivial
  | cons event rest ih =>
    obtain ⟨first, later⟩ := List.forall_mem_cons.mp all
    refine ⟨first, ?_⟩
    cases step s event with
    | none => trivial
    | some next => exact ih later next

/-- A property that every step preserves holds in every reachable state. -/
theorem reachable_invariant {step : σ → ε → Option σ} {Inv : σ → Prop}
    (preserve : ∀ s event next, Inv s → step s event = some next → Inv next)
    {init s : σ} (start : Inv init) (h : Reachable step init s) : Inv s := by
  obtain ⟨events, h⟩ := h
  exact guarded_invariant (fun s event next inv _ stepped => preserve s event next inv stepped)
    start (guarded_of_forall (fun _ _ => trivial) init) h

/-- A property of the events so far and the state. -/
theorem history_invariant {step : σ → ε → Option σ} {Inv : List ε → σ → Prop}
    (preserve : ∀ past s event next, Inv past s → step s event = some next → Inv (past ++ [event]) next)
    {past events : List ε} {s t : σ} (start : Inv past s) (h : run step s events = some t) :
    Inv (past ++ events) t := by
  induction events generalizing past s with
  | nil =>
    cases h
    rw [List.append_nil]
    exact start
  | cons event rest ih =>
    obtain ⟨next, stepped, h⟩ := run_cons.mp h
    have later := ih (preserve past s event next start stepped) h
    rwa [List.append_assoc] at later

/-! ## Services

A service answers every event. `serve` is the log of events and answers, and the state after them. -/

variable {ω : Type*}

def serve (handle : σ → ε → ω × σ) : σ → List ε → List (ε × ω) × σ
  | s, [] => ([], s)
  | s, event :: rest =>
    let answered := handle s event
    let later := serve handle answered.2 rest
    ((event, answered.1) :: later.1, later.2)

theorem serve_log {handle : σ → ε → ω × σ} {Inv : σ → Prop} {P : ε → ω → Prop}
    (preserve : ∀ s event, Inv s → Inv (handle s event).2) (answers : ∀ s event, Inv s → P event (handle s event).1)
    {s : σ} (start : Inv s) (events : List ε) : ∀ entry ∈ (serve handle s events).1, P entry.1 entry.2 := by
  induction events generalizing s with
  | nil =>
    intro entry member
    cases member
  | cons event rest ih =>
    intro entry member
    rcases List.mem_cons.mp member with rfl | later
    · exact answers s event start
    · exact ih (preserve s event start) entry later

/-- Events that leave the state alone can be taken out of a run: the others are answered as before. -/
theorem serve_purge {handle : σ → ε → ω × σ} {Inv : σ → Prop} {visible : ε → Bool}
    (preserve : ∀ s event, Inv s → Inv (handle s event).2)
    (silent : ∀ s event, Inv s → visible event = false → (handle s event).2 = s)
    {s : σ} (start : Inv s) (events : List ε) :
    serve handle s (events.filter visible) =
      ((serve handle s events).1.filter (fun entry => visible entry.1), (serve handle s events).2) := by
  induction events generalizing s with
  | nil => rfl
  | cons event rest ih =>
    have later := ih (preserve s event start)
    cases seen : visible event with
    | true => simp only [List.filter_cons, seen, ↓reduceIte, serve, later]
    | false =>
      rw [silent s event start seen] at later
      simp only [List.filter_cons, seen, Bool.false_eq_true, ↓reduceIte, serve, silent s event start seen, later]

end NoisyShuttle
