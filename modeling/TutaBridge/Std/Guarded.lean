import Mathlib.Data.List.Basic

/-!
# Guarded runs

A run is a list of steps folded over a state. `Guarded` says that every step of
it meets a condition in the very state the step starts from, which is how a
condition on one step becomes a condition on runs.
-/

namespace TutaBridge.Std

variable {σ α : Type}

/-- Every step of the run meets `Allowed` in the state it starts from. -/
def Guarded (step : σ → α → σ) (Allowed : σ → α → Prop) : σ → List α → Prop
  | _, [] => True
  | state, label :: rest => Allowed state label ∧ Guarded step Allowed (step state label) rest

instance Guarded.decide {step : σ → α → σ} {Allowed : σ → α → Prop}
    [∀ state label, Decidable (Allowed state label)] :
    ∀ state run, Decidable (Guarded step Allowed state run)
  | _, [] => .isTrue trivial
  | state, label :: rest =>
    have _ : Decidable (Guarded step Allowed (step state label) rest) :=
      decide (step state label) rest
    inferInstanceAs (Decidable (Allowed state label ∧ Guarded step Allowed (step state label) rest))

namespace Guarded

variable {step : σ → α → σ} {Allowed : σ → α → Prop}

@[simp] theorem nil (state : σ) : Guarded step Allowed state [] := trivial

@[simp] theorem cons_iff (state : σ) (label : α) (rest : List α) :
    Guarded step Allowed state (label :: rest) ↔
      Allowed state label ∧ Guarded step Allowed (step state label) rest := Iff.rfl

/-- A run is guarded exactly when both of its parts are. -/
theorem append_iff (state : σ) (first second : List α) : Guarded step Allowed state (first ++ second) ↔
      Guarded step Allowed state first ∧ Guarded step Allowed (first.foldl step state) second := by
  induction first generalizing state with
  | nil => simp
  | cons label rest ih => simp [ih, and_assoc]

/-- What every allowed step preserves, a guarded run preserves. -/
theorem foldl_invariant (Inv : σ → Prop)
    (preserved : ∀ state label, Inv state → Allowed state label → Inv (step state label))
    {state : σ} {run : List α} (holds : Inv state) (guarded : Guarded step Allowed state run) :
    Inv (run.foldl step state) := by
  induction run generalizing state with
  | nil => exact holds
  | cons label rest ih =>
    exact ih (preserved state label holds guarded.1) guarded.2

/-- What holds of every label may be added to the condition. -/
theorem and_forall {P : α → Prop} {state : σ} {run : List α}
    (guarded : Guarded step Allowed state run) (all : ∀ label ∈ run, P label) :
    Guarded step (fun state label => Allowed state label ∧ P label) state run := by
  induction run generalizing state with
  | nil => trivial
  | cons label rest ih =>
    exact ⟨⟨guarded.1, all label List.mem_cons_self⟩, ih guarded.2
      fun other mem => all other (List.mem_cons_of_mem _ mem)⟩

/-- A condition on the labels alone. -/
theorem const_iff {P : α → Prop} (state : σ) (run : List α) :
    Guarded step (fun _ label => P label) state run ↔ ∀ label ∈ run, P label := by
  induction run generalizing state with
  | nil => simp
  | cons label rest ih => simp [ih]

/-- A weaker condition is met by the same run. -/
theorem mono {Weaker : σ → α → Prop} (weaker : ∀ state label, Allowed state label → Weaker state label)
    {state : σ} {run : List α} (guarded : Guarded step Allowed state run) : Guarded step Weaker state run := by
  induction run generalizing state with
  | nil => trivial
  | cons label rest ih =>
    exact ⟨weaker state label guarded.1, ih guarded.2⟩

/-- When each step keeps a property exactly if it is allowed, a run keeps it
exactly if the run is guarded. -/
theorem foldl_iff (Q : σ → Prop) (stepIff : ∀ state label, Q (step state label) ↔ Q state ∧ Allowed state label)
    (state : σ) (run : List α) : Q (run.foldl step state) ↔ Q state ∧ Guarded step Allowed state run := by
  induction run generalizing state with
  | nil => simp
  | cons label rest ih =>
    rw [List.foldl_cons, ih, stepIff, cons_iff, and_assoc]

/-- A run is guarded exactly when the step after each of its parts is allowed. -/
theorem iff_forall_split (state : σ) (run : List α) : Guarded step Allowed state run ↔
      ∀ first label second, run = first ++ label :: second → Allowed (first.foldl step state) label := by
  constructor
  · rintro guarded first label second rfl
    exact ((append_iff state first (label :: second)).mp guarded).2.1
  · intro allowed
    induction run generalizing state with
    | nil => trivial
    | cons label rest ih =>
      refine ⟨allowed [] label rest rfl, ih _ ?_⟩
      rintro first other second rfl
      exact allowed (label :: first) other second rfl

/-- When a step keeps a property exactly if it is allowed, the property holds all
along a run exactly if the run is guarded. -/
theorem iff_forall_prefix (Q : σ → Prop)
    (stepIff : ∀ state label, Q state → (Q (step state label) ↔ Allowed state label))
    {state : σ} (holds : Q state) (run : List α) :
    (∀ first, first <+: run → Q (first.foldl step state)) ↔ Guarded step Allowed state run := by
  induction run generalizing state with
  | nil =>
    refine ⟨fun _ => trivial, fun _ first isStart => ?_⟩
    rw [List.prefix_nil.mp isStart]
    exact holds
  | cons label rest ih =>
    constructor
    · intro always
      have kept := always [label] ((List.prefix_cons_inj label).mpr List.nil_prefix)
      refine ⟨(stepIff state label holds).mp kept, (ih kept).mp ?_⟩
      intro first isStart
      exact always (label :: first) ((List.prefix_cons_inj label).mpr isStart)
    · rintro ⟨allowed, later⟩ first isStart
      have kept := (stepIff state label holds).mpr allowed
      cases first with
      | nil => exact holds
      | cons head tail =>
        obtain ⟨rfl, isTail⟩ := List.cons_prefix_cons.mp isStart
        exact (ih kept).mpr later tail isTail

end Guarded

/-- What no step changes, no run changes. -/
theorem foldl_keeps {β : Type} {step : σ → α → σ} (view : σ → β)
    (keeps : ∀ state item, view (step state item) = view state) (items : List α) (state : σ) :
    view (items.foldl step state) = view state := by
  induction items generalizing state with
  | nil => rfl
  | cons item rest ih =>
    rw [List.foldl_cons, ih, keeps]

/-- What the step of each label brings about and no step takes away, a run brings
about for all its labels. -/
theorem foldl_establishes {step : σ → α → σ} (Q : α → σ → Prop) (Inv : σ → Prop) {run : List α}
    (stepInv : ∀ state, ∀ label ∈ run, Inv state → Inv (step state label))
    (establishes : ∀ state, ∀ label ∈ run, Inv state → Q label (step state label))
    (keeps : ∀ state, ∀ label ∈ run, ∀ other ∈ run, Inv state → Q label state → Q label (step state other))
    {state : σ} (holds : Inv state) : ∀ label ∈ run, Q label (run.foldl step state) := by
  have ahead : ∀ (rest : List α) (state : σ) (done : List α), (∀ label ∈ rest, label ∈ run) →
      (∀ label ∈ done, label ∈ run ∧ Q label state) → Inv state →
      ∀ label, label ∈ done ∨ label ∈ rest → Q label (rest.foldl step state) := by
    intro rest
    induction rest with
    | nil => exact fun state done _ settled _ label mem => (settled label (by simpa using mem)).2
    | cons next rest ih =>
      intro state done inRun settled holds label mem
      have nextInRun := inRun next List.mem_cons_self
      refine ih (step state next) (next :: done)
        (fun other later => inRun other (List.mem_cons_of_mem _ later)) ?_
        (stepInv state next nextInRun holds) label (by simp at mem ⊢; tauto)
      intro other isDone
      rcases List.mem_cons.mp isDone with rfl | earlier
      · exact ⟨nextInRun, establishes state other nextInRun holds⟩
      · obtain ⟨otherInRun, reached⟩ := settled other earlier
        exact ⟨otherInRun, keeps state other otherInRun next nextInRun holds reached⟩
  exact fun label mem => ahead run state [] (fun _ => id) (by simp) holds label (.inr mem)

/-- Some step of the run meets `P` in the state it starts from. -/
def Sometime (step : σ → α → σ) (P : σ → α → Prop) : σ → List α → Prop
  | _, [] => False
  | state, label :: rest => P state label ∨ Sometime step P (step state label) rest

/-- When a step brings a property about exactly if it meets `P`, and takes it
from no state, so does a run. The labels meet `Label` and the states `Inv`. -/
theorem Sometime.foldl_iff {step : σ → α → σ} {P : σ → α → Prop} (Q Inv : σ → Prop) (Label : α → Prop)
    (stepInv : ∀ state label, Label label → Inv state → Inv (step state label))
    (stepIff : ∀ state label, Label label → Inv state → (Q (step state label) ↔ Q state ∨ P state label))
    {state : σ} {run : List α} (labels : ∀ label ∈ run, Label label) (holds : Inv state) :
    Q (run.foldl step state) ↔ Q state ∨ Sometime step P state run := by
  induction run generalizing state with
  | nil => simp [Sometime]
  | cons label rest ih =>
    have here := labels label List.mem_cons_self
    rw [List.foldl_cons, ih (fun other mem => labels other (List.mem_cons_of_mem _ mem))
      (stepInv state label here holds), stepIff state label here holds, Sometime, or_assoc]

theorem Sometime.iff_prefix {step : σ → α → σ} {P : σ → α → Prop} {state : σ} {run : List α} :
    Sometime step P state run ↔ ∃ earlier label, earlier ++ [label] <+: run ∧ P (earlier.foldl step state) label := by
  induction run generalizing state with
  | nil => simp [Sometime]
  | cons head rest ih =>
    rw [Sometime, ih]
    constructor
    · rintro (here | ⟨earlier, label, inFront, holds⟩)
      · exact ⟨[], head, by simp, here⟩
      · exact ⟨head :: earlier, label, by simpa using inFront, holds⟩
    · rintro ⟨earlier, label, inFront, holds⟩
      cases earlier with
      | nil =>
        obtain rfl : label = head := by simpa using inFront
        exact .inl holds
      | cons first earlier =>
        obtain ⟨rfl, behind⟩ := List.cons_prefix_cons.mp inFront
        exact .inr ⟨earlier, label, behind, holds⟩

/-- The last answer the steps of a run give, each in the state it starts from. -/
def lastAnswer {β : Type} (step : σ → α → σ) (answer : σ → α → Option β) : σ → List α → Option β
  | _, [] => none
  | state, label :: rest => (lastAnswer step answer (step state label) rest).or (answer state label)

theorem lastAnswer_eq_some_imp {β : Type} {step : σ → α → σ} {answer : σ → α → Option β} {state : σ}
    {run : List α} {value : β} (last : lastAnswer step answer state run = some value) :
    ∃ before label, answer before label = some value := by
  induction run generalizing state with
  | nil => cases last
  | cons label rest ih =>
    rw [lastAnswer, Option.or_eq_some_iff] at last
    rcases last with later | ⟨_, now⟩
    · exact ih later
    · exact ⟨state, label, now⟩

/-- When a step that answers decides a property and any other leaves it, the last
answer of a run decides it. -/
theorem foldl_iff_lastAnswer {β : Type} {step : σ → α → σ} {answer : σ → α → Option β} (Q : σ → Prop)
    (Says : β → Prop)
    (stepIff : ∀ state label, Q (step state label) ↔ ((answer state label).map Says).getD (Q state))
    (state : σ) (run : List α) :
    Q (run.foldl step state) ↔ ((lastAnswer step answer state run).map Says).getD (Q state) := by
  induction run generalizing state with
  | nil => simp [lastAnswer]
  | cons label rest ih =>
    rw [List.foldl_cons, ih, lastAnswer]
    cases lastAnswer step answer (step state label) rest with
    | some value => simp
    | none => simpa using stepIff state label

end TutaBridge.Std
