import Mathlib.Data.List.Induction

/-!
# Histories

An operation is recorded as an event, made from the state it finds and leading to the
state it leaves. The history of a run is the list of its events. What is asked of a
history is mostly about the order of its events: what must have happened between two of
them, and what the state after them remembers.
-/

namespace TutaBridge.Std

variable {σ α ε : Type}

/-- The events of a run. -/
def history (event : σ → α → ε) (after : ε → σ) : σ → List α → List ε
  | _, [] => []
  | state, label :: rest =>
    event state label :: history event after (after (event state label)) rest

/-- The state a run leaves. -/
def final (event : σ → α → ε) (after : ε → σ) (state : σ) (labels : List α) : σ :=
  labels.foldl (fun state label => after (event state label)) state

section History

variable {event : σ → α → ε} {after : ε → σ}

theorem history_cons (state : σ) (label : α) (rest : List α) : history event after state (label :: rest) =
      event state label :: history event after (after (event state label)) rest := rfl

theorem final_cons (state : σ) (label : α) (rest : List α) : final event after state (label :: rest) =
      final event after (after (event state label)) rest := rfl

theorem final_append (state : σ) (first second : List α) : final event after state (first ++ second) =
      final event after (final event after state first) second :=
  List.foldl_append

theorem final_concat (state : σ) (labels : List α) (label : α) : final event after state (labels ++ [label]) =
      after (event (final event after state labels) label) :=
  final_append state labels [label]

theorem history_append (state : σ) (first second : List α) : history event after state (first ++ second) =
      history event after state first ++ history event after (final event after state first) second := by
  induction first generalizing state with
  | nil => rfl
  | cons label rest ih =>
    rw [List.cons_append, history_cons, ih, history_cons, List.cons_append, final_cons]

theorem history_concat (state : σ) (labels : List α) (label : α) : history event after state (labels ++ [label]) =
      history event after state labels ++ [event (final event after state labels) label] :=
  history_append state labels [label]

/-- An event of a history belongs to a label, and the history goes on from what it leaves. -/
theorem history_eq_append_cons {state : σ} {labels : List α} {before later : List ε} {this : ε}
    (split : history event after state labels = before ++ this :: later) :
    ∃ first label second, labels = first ++ label :: second ∧
      before = history event after state first ∧ this = event (final event after state first) label ∧
      later = history event after (after this) second := by
  induction labels generalizing state before with
  | nil => exact absurd split.symm (List.append_ne_nil_of_right_ne_nil _ (List.cons_ne_nil _ _))
  | cons label rest ih =>
    rw [history_cons] at split
    cases before with
    | nil =>
      obtain ⟨rfl, rfl⟩ := List.cons.inj split
      exact ⟨[], label, rest, rfl, rfl, rfl, rfl⟩
    | cons earlier before =>
      obtain ⟨rfl, shorter⟩ := List.cons.inj split
      obtain ⟨first, found, second, rfl, rfl, same, rest⟩ := ih shorter
      exact ⟨label :: first, found, second, rfl, rfl, same, rest⟩

/-- What the start satisfies and every event preserves holds where a run leads. -/
theorem final_invariant (Inv : σ → Prop)
    (preserved : ∀ state label, Inv state → Inv (after (event state label))) {state : σ}
    (holds : Inv state) (labels : List α) : Inv (final event after state labels) := by
  induction labels generalizing state with
  | nil => exact holds
  | cons label rest ih => exact ih (preserved state label holds)

/-- What links a state to the events before it, and survives one more event, links where a
run leads to its history. -/
theorem final_of_history (Linked : List ε → σ → Prop) (extended : ∀ events state label, Linked events state →
      Linked (events ++ [event state label]) (after (event state label)))
    {state : σ} (holds : Linked [] state) (labels : List α) :
    Linked (history event after state labels) (final event after state labels) := by
  induction labels using List.reverseRecOn with
  | nil => exact holds
  | append_singleton labels label ih =>
    rw [history_concat, final_concat]
    exact extended _ _ _ ih

/-- A condition that only some events lift still holds after events that do not lift it. -/
theorem final_of_none (Holds : σ → Prop) (Lifts : ε → Prop)
    (kept : ∀ state label, Holds state → Lifts (event state label) ∨ Holds (after (event state label)))
    {state : σ} {labels : List α} (holds : Holds state)
    (none : ∀ other ∈ history event after state labels, ¬ Lifts other) : Holds (final event after state labels) := by
  induction labels generalizing state with
  | nil => exact holds
  | cons label rest ih =>
    obtain ⟨here, later⟩ := List.forall_mem_cons.mp none
    exact ih ((kept state label holds).resolve_left here) later

/-- Where some events impose a condition that others lift, and no event of a third kind
happens under it, an event of the third kind after one of the first has one that lifts the
condition in between. -/
theorem exists_lifting (Holds : σ → Prop) (Imposes Lifts Needs : ε → Prop)
    (imposed : ∀ state label, Imposes (event state label) →
      Lifts (event state label) ∨ Holds (after (event state label)))
    (kept : ∀ state label, Holds state → Lifts (event state label) ∨ Holds (after (event state label)))
    (refused : ∀ state label, Holds state → ¬ Needs (event state label))
    {state : σ} {labels : List α} {before middle later : List ε} {bad change : ε}
    (split : history event after state labels = before ++ bad :: (middle ++ change :: later))
    (imposes : Imposes bad) (needs : Needs change) : ∃ lifting ∈ bad :: middle, Lifts lifting := by
  obtain ⟨first, label, second, -, -, rfl, rest⟩ := history_eq_append_cons split
  obtain ⟨second, changing, third, -, rfl, rfl, -⟩ := history_eq_append_cons rest.symm
  by_contra missing
  have none : ∀ other ∈ _ :: _, ¬ Lifts other := fun other mem lifts => missing ⟨other, mem, lifts⟩
  obtain ⟨here, between⟩ := List.forall_mem_cons.mp none
  have holds := (imposed _ label imposes).resolve_left here
  exact refused _ changing (final_of_none Holds Lifts kept holds between) needs

end History

end TutaBridge.Std
