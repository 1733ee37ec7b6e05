import Mathlib.Computability.Language
import Mathlib.Order.CompletePartialOrder
import NoisyShuttle.Lib.Run

/-!
# What a run puts out

The outputs of the steps of a run, one after another, and the languages such outputs are words of.
-/

namespace NoisyShuttle

section Collect
variable {σ ε α : Type*} {step : σ → ε → Option σ} {out : σ → List α}

/-- The outputs along a run, each read from the state its step leads to. -/
def collect (step : σ → ε → Option σ) (out : σ → List α) : σ → List ε → List α
  | _, [] => []
  | s, event :: rest =>
    match step s event with
    | some next => out next ++ collect step out next rest
    | none => []

/-- An invariant over the events so far, the output so far and the state. -/
theorem collect_invariant {ok : ε → Prop} {Inv : List ε → List α → σ → Prop}
    (preserve : ∀ past written s event next, Inv past written s → ok event → step s event = some next →
      Inv (past ++ [event]) (written ++ out next) next)
    {past : List ε} {written : List α} {s t : σ} {events : List ε} (start : Inv past written s)
    (all : ∀ event ∈ events, ok event) (h : run step s events = some t) :
    Inv (past ++ events) (written ++ collect step out s events) t := by
  induction events generalizing past written s with
  | nil =>
    cases h
    simpa [collect] using start
  | cons event rest ih =>
    obtain ⟨next, stepped, h⟩ := run_cons.mp h
    obtain ⟨first, later⟩ := List.forall_mem_cons.mp all
    have done := ih (preserve past written s event next start first stepped) later h
    simpa [collect, stepped] using done

end Collect

section Reports
variable {σ ε α : Type*} {step : σ → ε → Option σ} {report : σ → ε → Option α}

/-- What the steps of a run report, each read from the state before it and its event. -/
def reports (step : σ → ε → Option σ) (report : σ → ε → Option α) : σ → List ε → List α
  | _, [] => []
  | s, event :: rest => (report s event).toList ++
    match step s event with
    | some next => reports step report next rest
    | none => []

theorem reports_invariant {Inv : List ε → List α → σ → Prop}
    (preserve : ∀ past reported s event next, Inv past reported s → step s event = some next →
      Inv (past ++ [event]) (reported ++ (report s event).toList) next)
    {past : List ε} {reported : List α} {s t : σ} {events : List ε} (start : Inv past reported s)
    (h : run step s events = some t) : Inv (past ++ events) (reported ++ reports step report s events) t := by
  induction events generalizing past reported s with
  | nil =>
    cases h
    simpa [reports] using start
  | cons event rest ih =>
    obtain ⟨next, stepped, h⟩ := run_cons.mp h
    have later := ih (preserve past reported s event next start stepped) h
    simpa [reports, stepped] using later

end Reports

section Words
variable {α : Type*} {l m : Language α} {w : List α}

def prefixes (l : Language α) : Language α := {u | ∃ v ∈ l, u <+: v}

theorem mem_prefixes_of_append {rest : List α} (h : w ++ rest ∈ l) : w ∈ prefixes l :=
  ⟨w ++ rest, h, List.prefix_append w rest⟩

theorem le_prefixes (l : Language α) : l ≤ prefixes l := fun w h => ⟨w, h, List.prefix_rfl⟩

/-- The words of one letter that meets `p`. -/
def letter (p : α → Prop) : Language α := {w | ∃ a, p a ∧ w = [a]}

theorem append_letter_mem {p : α → Prop} {a : α} (h : w ∈ l) (letter_ : p a) : w ++ [a] ∈ l * letter p :=
  Language.append_mem_mul h ⟨a, letter_, rfl⟩

end Words
end NoisyShuttle
