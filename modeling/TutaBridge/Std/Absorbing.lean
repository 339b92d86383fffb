import Mathlib.Data.List.Basic

/-!
# Runs that may be repeated

In an absorbing system a step is undone by a later step of the same label: it
leaves no trace that the later one does not overwrite. Overwriting a register is
the typical case. A run of such steps does the same when it is repeated.
-/

namespace TutaBridge.Std

variable {σ α : Type}

/-- Repeating a label makes its earlier step, in whatever came between, as if it
had not been taken. -/
structure Absorbing (step : σ → α → σ) : Prop where
  repeated : ∀ state label, step (step state label) label = step state label
  absorbed : ∀ state label other, step (step (step state label) other) label = step (step state other) label

namespace Absorbing

variable {step : σ → α → σ}

/-- States that a label makes equal stay so, whatever comes before the label. -/
theorem congr (absorbing : Absorbing step) {left right : σ} {label : α}
    (equal : step left label = step right label) (between : List α) :
    step (between.foldl step left) label = step (between.foldl step right) label := by
  induction between generalizing left right with
  | nil => exact equal
  | cons other rest ih =>
    apply ih
    rw [← absorbing.absorbed, equal, absorbing.absorbed]

/-- States that one label of a run makes equal, the run makes equal. -/
theorem foldl_congr (absorbing : Absorbing step) {left right : σ} {run : List α} {label : α}
    (equal : step left label = step right label) (later : label ∈ run) :
    run.foldl step left = run.foldl step right := by
  obtain ⟨before, after, rfl⟩ := List.append_of_mem later
  rw [List.foldl_append, List.foldl_append, List.foldl_cons, List.foldl_cons, absorbing.congr equal]

/-- A step is absorbed by a run that takes it again. -/
theorem foldl_step (absorbing : Absorbing step) {run : List α} {label : α} (later : label ∈ run)
    (state : σ) : run.foldl step (step state label) = run.foldl step state :=
  absorbing.foldl_congr (absorbing.repeated state label) later

/-- Repeating a run changes nothing. -/
theorem foldl_foldl (absorbing : Absorbing step) (run : List α) (state : σ) :
    run.foldl step (run.foldl step state) = run.foldl step state := by
  have absorbs : ∀ earlier : List α, (∀ label ∈ earlier, label ∈ run) → ∀ state,
      run.foldl step (earlier.foldl step state) = run.foldl step state := by
    intro earlier
    induction earlier with
    | nil => intro _ state; rfl
    | cons label rest ih =>
      intro later state
      rw [List.foldl_cons, ih (fun other mem => later other (List.mem_cons_of_mem _ mem)),
        absorbing.foldl_step (later label List.mem_cons_self)]
  exact absorbs run (fun _ mem => mem) state

end Absorbing

end TutaBridge.Std
