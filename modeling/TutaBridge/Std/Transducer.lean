import TutaBridge.Std.Guarded

/-!
# Machines that write

A step takes a label and writes a list of outputs. A run concatenates what its steps
write. Two machines that agree where a condition holds write the same along a run that is
guarded by it, and a run that is not guarded has a first step that breaks the condition.
-/

namespace TutaBridge.Std

variable {σ α β : Type}

/-- What a run writes, and the state it leads to. -/
def run (step : σ → α → List β × σ) : σ → List α → List β × σ
  | state, [] => ([], state)
  | state, label :: rest =>
    ((step state label).1 ++ (run step (step state label).2 rest).1, (run step (step state label).2 rest).2)

/-- Where a step leads, whatever it writes. -/
def after (step : σ → α → List β × σ) (state : σ) (label : α) : σ := (step state label).2

section Run

variable {step : σ → α → List β × σ}

theorem run_nil (state : σ) : run step state [] = ([], state) := rfl

theorem run_cons (state : σ) (label : α) (rest : List α) : run step state (label :: rest) =
      ((step state label).1 ++ (run step (step state label).2 rest).1,
        (run step (step state label).2 rest).2) := rfl

theorem run_append (state : σ) (first second : List α) : run step state (first ++ second) =
      ((run step state first).1 ++ (run step (run step state first).2 second).1,
        (run step (run step state first).2 second).2) := by
  induction first generalizing state with
  | nil => rfl
  | cons label rest ih =>
    rw [List.cons_append, run_cons, ih, run_cons]
    dsimp only
    rw [List.append_assoc]

theorem run_concat (state : σ) (labels : List α) (label : α) : run step state (labels ++ [label]) =
      ((run step state labels).1 ++ (step (run step state labels).2 label).1,
        (step (run step state labels).2 label).2) := by
  rw [run_append, run_cons, run_nil, List.append_nil]

/-- Where a run leads is the fold of where its steps lead. -/
theorem run_snd (state : σ) (labels : List α) : (run step state labels).2 = labels.foldl (after step) state := by
  induction labels generalizing state with
  | nil => rfl
  | cons label rest ih => exact ih _

/-- What every step preserves, a run preserves. -/
theorem run_invariant (Inv : σ → Prop)
    (preserved : ∀ state label, Inv state → Inv (step state label).2) {state : σ} (holds : Inv state)
    (labels : List α) : Inv (run step state labels).2 := by
  induction labels generalizing state with
  | nil => exact holds
  | cons label rest ih => exact ih (preserved state label holds)

/-- Where an invariant and a condition on the step make two machines agree, they write the
same along a run that is guarded by the condition. -/
theorem run_congr {other : σ → α → List β × σ} {Allowed : σ → α → Prop} (Inv : σ → Prop)
    (same : ∀ state label, Inv state → Allowed state label → other state label = step state label)
    (preserved : ∀ state label, Inv state → Allowed state label → Inv (step state label).2)
    {state : σ} {labels : List α} (holds : Inv state) (guarded : Guarded (after step) Allowed state labels) :
    run other state labels = run step state labels := by
  induction labels generalizing state with
  | nil => rfl
  | cons label rest ih =>
    obtain ⟨allowed, later⟩ := guarded
    rw [run_cons, run_cons, same state label holds allowed, ih (preserved state label holds allowed) later]

/-- Where a step writes nothing exactly when it is allowed, a run writes nothing exactly
when it is guarded. -/
theorem run_silent_iff {Allowed : σ → α → Prop} (Inv : σ → Prop)
    (silentIff : ∀ state label, Inv state → ((step state label).1 = [] ↔ Allowed state label))
    (preserved : ∀ state label, Inv state → Allowed state label → Inv (step state label).2)
    {state : σ} (holds : Inv state) (labels : List α) :
    (run step state labels).1 = [] ↔ Guarded (after step) Allowed state labels := by
  induction labels generalizing state with
  | nil => exact iff_of_true rfl trivial
  | cons label rest ih =>
    rw [run_cons, Guarded.cons_iff, List.append_eq_nil_iff, silentIff state label holds]
    exact and_congr_right fun allowed => ih (preserved state label holds allowed)

/-- An item of a list with one more at its end is the last one, or stands before it. -/
theorem concat_eq_append_cons {items before later : List α} {last item : α}
    (same : items ++ [last] = before ++ item :: later) : before = items ∧ item = last ∧ later = [] ∨
      ∃ rest, later = rest ++ [last] ∧ items = before ++ item :: rest := by
  rcases List.eq_nil_or_concat' later with rfl | ⟨rest, other, rfl⟩
  · obtain ⟨rfl, single⟩ := List.append_inj' same rfl
    exact .inl ⟨rfl, (List.cons.inj single).1.symm, rfl⟩
  · rw [← List.cons_append, ← List.append_assoc] at same
    obtain ⟨rfl, single⟩ := List.append_inj' same rfl
    exact .inr ⟨rest, by rw [(List.cons.inj single).1], rfl⟩

end Run

end TutaBridge.Std
