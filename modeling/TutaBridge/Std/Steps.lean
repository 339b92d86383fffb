import Mathlib.Data.List.Basic
import Mathlib.Data.List.Induction

/-!
# Labelled steps

A system of tasks is a partial step function: a label says which task moves, and
a task that is blocked has no step. `Steps` is a schedule, a list of labels, with
the state it leads to.
-/

namespace TutaBridge.Std

variable {σ α : Type}

/-- The schedule leads from the first state to the second. -/
inductive Steps (step : σ → α → Option σ) : σ → List α → σ → Prop where
  | nil (state : σ) : Steps step state [] state
  | cons {state next final : σ} {label : α} {rest : List α}
      (first : step state label = some next) (later : Steps step next rest final) :
      Steps step state (label :: rest) final

/-- Every step of the schedule is allowed in the state it is taken in. -/
def Careful (step : σ → α → Option σ) (Allowed : σ → α → Prop) : σ → List α → Prop
  | _, [] => True
  | state, label :: rest =>
    Allowed state label ∧ ∀ next ∈ step state label, Careful step Allowed next rest

instance Careful.decide {step : σ → α → Option σ} {Allowed : σ → α → Prop}
    [∀ state label, Decidable (Allowed state label)] :
    ∀ state schedule, Decidable (Careful step Allowed state schedule)
  | _, [] => .isTrue trivial
  | state, label :: rest =>
    have _ : ∀ next, Decidable (Careful step Allowed next rest) := fun next => decide next rest
    inferInstanceAs (Decidable
      (Allowed state label ∧ ∀ next ∈ step state label, Careful step Allowed next rest))

namespace Steps

variable {step : σ → α → Option σ}

theorem single {state next : σ} {label : α} (first : step state label = some next) : Steps step state [label] next :=
  .cons first (.nil next)

/-- A schedule that can be evaluated leads to what it evaluates to. -/
theorem exists_of_any (P : σ → Prop) [DecidablePred P] {start : σ} {schedule : List α}
    (reached : (schedule.foldlM step start).any P) : ∃ final, Steps step start schedule final ∧ P final := by
  induction schedule generalizing start with
  | nil => exact ⟨start, .nil start, by simpa using reached⟩
  | cons label rest ih =>
    rw [List.foldlM_cons] at reached
    cases first : step start label with
    | none => simp [first] at reached
    | some next =>
      rw [first] at reached
      obtain ⟨final, later, holds⟩ := ih reached
      exact ⟨final, .cons first later, holds⟩

theorem append {start middle final : σ} {first second : List α} (early : Steps step start first middle)
    (late : Steps step middle second final) : Steps step start (first ++ second) final := by
  induction early with
  | nil => exact late
  | cons stepped _ ih => exact .cons stepped (ih late)

/-- What a schedule evaluates to is where it leads. -/
theorem of_all (P : σ → Prop) [DecidablePred P] {start final : σ} {schedule : List α}
    (checked : (schedule.foldlM step start).all P) (steps : Steps step start schedule final) : P final := by
  induction steps with
  | nil => simpa using checked
  | cons first _ ih =>
    rw [List.foldlM_cons, first] at checked
    exact ih checked

/-- What every step preserves, a schedule preserves. -/
theorem invariant (Inv : σ → Prop)
    (preserved : ∀ state label next, Inv state → step state label = some next → Inv next)
    {start final : σ} {schedule : List α} (steps : Steps step start schedule final)
    (holds : Inv start) : Inv final := by
  induction steps with
  | nil => exact holds
  | cons stepped _ ih => exact ih (preserved _ _ _ holds stepped)

/-- A schedule with one more step at its end leads through the state before that step. -/
theorem concat_cases {start final : σ} {schedule : List α} {label : α}
    (steps : Steps step start (schedule ++ [label]) final) :
    ∃ middle, Steps step start schedule middle ∧ step middle label = some final := by
  induction schedule generalizing start with
  | nil =>
    cases steps with
    | cons first later =>
      cases later
      exact ⟨start, .nil start, first⟩
  | cons other rest ih =>
    cases steps with
    | cons first later =>
      obtain ⟨middle, early, last⟩ := ih later
      exact ⟨middle, .cons first early, last⟩

/-- What links a state to the schedule that led to it, and survives one more step, links
where every schedule leads to the schedule. -/
theorem linked {start : σ} (Linked : List α → σ → Prop)
    (extended : ∀ schedule state label next, Steps step start schedule state → Linked schedule state →
      step state label = some next → Linked (schedule ++ [label]) next)
    {final : σ} {schedule : List α} (steps : Steps step start schedule final)
    (holds : Linked [] start) : Linked schedule final := by
  induction schedule using List.reverseRecOn generalizing final with
  | nil =>
    cases steps
    exact holds
  | append_singleton schedule label ih =>
    obtain ⟨middle, early, last⟩ := concat_cases steps
    exact extended schedule middle label final early (ih early) last

/-- What every step changes by its label alone, a schedule changes label by label. -/
theorem view_eq_foldl {β : Type} (view : σ → β) {change : β → α → β}
    (changes : ∀ state label next, step state label = some next → view next = change (view state) label)
    {start final : σ} {schedule : List α} (steps : Steps step start schedule final) :
    view final = schedule.foldl change (view start) := by
  induction steps with
  | nil => rfl
  | cons first _ ih =>
    rw [ih, changes _ _ _ first, List.foldl_cons]

/-- What every step appends by its label alone, a schedule appends label by label. -/
theorem view_eq_append {β : Type} (view : σ → List β) {gives : α → Option β}
    (appends : ∀ state label next, step state label = some next → view next = view state ++ (gives label).toList)
    {start final : σ} {schedule : List α} (steps : Steps step start schedule final) :
    view final = view start ++ schedule.filterMap gives := by
  induction steps with
  | nil => rw [List.filterMap_nil, List.append_nil]
  | @cons _ _ _ label _ first _ ih =>
    rw [ih, appends _ _ _ first, List.append_assoc]
    cases isGiven : gives label with
    | none => simp [isGiven]
    | some item => simp [isGiven]

/-- What every allowed step preserves, a careful schedule preserves. -/
theorem invariant_of_careful {Allowed : σ → α → Prop} (Inv : σ → Prop)
    (preserved : ∀ state label next, Allowed state label → Inv state → step state label = some next → Inv next)
    {start final : σ} {schedule : List α} (steps : Steps step start schedule final)
    (careful : Careful step Allowed start schedule) (holds : Inv start) : Inv final := by
  induction steps with
  | nil => exact holds
  | cons stepped _ ih =>
    obtain ⟨allowed, later⟩ := careful
    exact ih (later _ stepped) (preserved _ _ _ allowed holds stepped)

/-- A schedule is careful when its first part is and its second part is from where
the first leads. -/
theorem careful_append {Allowed : σ → α → Prop} {start : σ} {first second : List α}
    (early : Careful step Allowed start first)
    (late : ∀ middle, Steps step start first middle → Careful step Allowed middle second) :
    Careful step Allowed start (first ++ second) := by
  induction first generalizing start with
  | nil => exact late start (.nil start)
  | cons label rest ih =>
    obtain ⟨allowed, later⟩ := early
    exact ⟨allowed, fun next stepped => ih (later next stepped)
      fun middle steps => late middle (.cons stepped steps)⟩

/-- Labels that are allowed in every state make a careful schedule. -/
theorem careful_of_forall {Allowed : σ → α → Prop} {schedule : List α}
    (allowed : ∀ label ∈ schedule, ∀ state, Allowed state label) (start : σ) :
    Careful step Allowed start schedule := by
  induction schedule generalizing start with
  | nil => trivial
  | cons label rest ih =>
    exact ⟨allowed label List.mem_cons_self start, fun next _ =>
      ih (fun other mem => allowed other (List.mem_cons_of_mem _ mem)) next⟩

end Steps

end TutaBridge.Std
