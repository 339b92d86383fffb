import Mathlib.Data.List.Basic
import Mathlib.Logic.Relation

/-!
# Recursion within a depth

A recursive function is given as its body, which is handed the function it asks. `within` runs it
to a depth: `none` says that the run went deeper. A body that asks only about inputs of a smaller
measure goes no deeper than the measure of its input, so it returns on every input.
-/

namespace TutaBridge.Std.Recursion

variable {ι ο α β : Type}

/-- A run to a depth. -/
def within (body : (ι → Option ο) → ι → Option ο) : Nat → ι → Option ο
  | 0, _ => none
  | depth + 1, input => body (within body depth) input

/-- A body that is over with a value, once the calls on smaller inputs are over with theirs. -/
def Descends (body : (ι → Option ο) → ι → Option ο) (measure : ι → Nat) (value : ι → ο) : Prop :=
  ∀ ask input, (∀ smaller, measure smaller < measure input → ask smaller = some (value smaller)) →
    body ask input = some (value input)

/-- A run deeper than the measure of its input is over. -/
theorem Descends.within_eq_some {body : (ι → Option ο) → ι → Option ο} {measure : ι → Nat}
    {value : ι → ο} (descends : Descends body measure value) {depth : Nat} {input : ι}
    (enough : measure input < depth) : within body depth input = some (value input) := by
  induction depth generalizing input with
  | zero => exact absurd enough (Nat.not_lt_zero _)
  | succ depth ih =>
    apply descends
    intro smaller isSmaller
    exact ih (by omega)

/-! ## Loops over what is asked -/

/-- A loop whose every round is over is over. -/
theorem foldlM_eq_some {step : β → α → Option β} {next : β → α → β} {items : List α}
    (isOver : ∀ state, ∀ item ∈ items, step state item = some (next state item)) (state : β) :
    items.foldlM step state = some (items.foldl next state) := by
  induction items generalizing state with
  | nil => rfl
  | cons item rest ih =>
    rw [List.foldlM_cons, isOver state item List.mem_cons_self]
    exact ih (fun state item mem => isOver state item (List.mem_cons_of_mem _ mem)) (next state item)

theorem mapM_eq_some {ask : α → Option β} {value : α → β} {items : List α}
    (isOver : ∀ item ∈ items, ask item = some (value item)) : items.mapM ask = some (items.map value) := by
  induction items with
  | nil => rfl
  | cons item rest ih =>
    rw [List.mapM_cons, isOver item List.mem_cons_self,
      ih fun item mem => isOver item (List.mem_cons_of_mem _ mem)]
    rfl

/-- A loop is over when each of its rounds is, whatever they are at. -/
theorem isSome_foldlM_iff {step : β → α → Option β} {holds : α → Prop} {items : List α}
    (rounds : ∀ state, ∀ item ∈ items, (step state item).isSome = true ↔ holds item) (state : β) :
    (items.foldlM step state).isSome = true ↔ ∀ item ∈ items, holds item := by
  induction items generalizing state with
  | nil => simp
  | cons item rest ih =>
    have first := rounds state item List.mem_cons_self
    have later := ih fun state item mem =>
      rounds state item (List.mem_cons_of_mem _ mem)
    rw [List.foldlM_cons, List.forall_mem_cons, ← first]
    cases stepped : step state item with
    | none => simp
    | some next => simpa using later next

theorem isSome_mapM_iff {ask : α → Option β} {items : List α} :
    (items.mapM ask).isSome = true ↔ ∀ item ∈ items, (ask item).isSome = true := by
  induction items with
  | nil => simp
  | cons item rest ih =>
    rw [List.mapM_cons, List.forall_mem_cons, ← ih]
    cases ask item with
    | none => simp
    | some value => cases rest.mapM ask <;> simp

/-! ## What is reached -/

/-- What holds of all that is reached holds of the start and of all that is reached from what is
next to it. -/
theorem forall_reached_iff {next : α → α → Prop} {holds : α → Prop} {start : α} :
    (∀ last, Relation.ReflTransGen next start last → holds last) ↔ holds start ∧
        ∀ second, next start second → ∀ last, Relation.ReflTransGen next second last → holds last := by
  constructor
  · intro all
    exact ⟨all start .refl, fun second step last path => all last (.head step path)⟩
  · rintro ⟨first, later⟩ last path
    rcases Relation.ReflTransGen.cases_head path with rfl | ⟨second, step, path⟩
    · exact first
    · exact later second step last path

end TutaBridge.Std.Recursion
