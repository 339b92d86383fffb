import Mathlib.Data.List.Induction

/-!
# Replaying insertions and removals

A log of insertions and removals over a set, replayed in order, leaves an element
in the set exactly when its last change inserted it. Replaying all insertions
before all removals agrees with the order of the log at an element unless its
last change inserts it and an earlier one removed it.
-/

namespace TutaBridge.Std

variable {α : Type}

/-- One entry of the log. -/
inductive Change (α : Type) where
  | insert (element : α)
  | remove (element : α)
deriving DecidableEq

namespace Change

def element : Change α → α
  | .insert element => element
  | .remove element => element

def isInsert : Change α → Bool
  | .insert _ => true
  | .remove _ => false

/-- The set after a change. -/
def apply (present : α → Prop) : Change α → α → Prop
  | .insert element => fun other => other = element ∨ present other
  | .remove element => fun other => other ≠ element ∧ present other

end Change

/-- The set after a log. -/
def replay (present : α → Prop) (log : List (Change α)) : α → Prop := log.foldl Change.apply present

/-- The log with its insertions first, each part in its order. -/
def insertsFirst (log : List (Change α)) : List (Change α) :=
  log.filter Change.isInsert ++ log.filter fun change => !change.isInsert

/-- The last change of an element. -/
def lastChange [DecidableEq α] (log : List (Change α)) (element : α) : Option (Change α) :=
  (log.filter fun change => change.element = element).getLast?

/-- The element is removed by the log and yet its last change inserts it. -/
def Returns [DecidableEq α] (log : List (Change α)) (element : α) : Prop :=
  lastChange log element = some (.insert element) ∧ .remove element ∈ log

instance [DecidableEq α] (log : List (Change α)) (element : α) : Decidable (Returns log element) :=
  inferInstanceAs (Decidable (_ ∧ _))

theorem replay_append (present : α → Prop) (first second : List (Change α)) :
    replay present (first ++ second) = replay (replay present first) second :=
  List.foldl_append

theorem replay_of_inserts {log : List (Change α)} (inserts : ∀ change ∈ log, change.isInsert)
    (present : α → Prop) (element : α) : replay present log element ↔ .insert element ∈ log ∨ present element := by
  induction log generalizing present with
  | nil => simp [replay]
  | cons head rest ih =>
    have restInserts : ∀ change ∈ rest, change.isInsert :=
      fun change mem => inserts change (List.mem_cons_of_mem _ mem)
    change replay (head.apply present) rest element ↔ _
    rw [ih restInserts]
    cases head with
    | remove other =>
      have := inserts (.remove other) List.mem_cons_self
      simp [Change.isInsert] at this
    | insert other =>
      simp only [Change.apply, List.mem_cons, Change.insert.injEq]
      tauto

theorem replay_of_removes {log : List (Change α)} (removes : ∀ change ∈ log, ¬ change.isInsert)
    (present : α → Prop) (element : α) : replay present log element ↔ .remove element ∉ log ∧ present element := by
  induction log generalizing present with
  | nil => simp [replay]
  | cons head rest ih =>
    have restRemoves : ∀ change ∈ rest, ¬ change.isInsert :=
      fun change mem => removes change (List.mem_cons_of_mem _ mem)
    change replay (head.apply present) rest element ↔ _
    rw [ih restRemoves]
    cases head with
    | insert other =>
      have := removes (.insert other) List.mem_cons_self
      simp [Change.isInsert] at this
    | remove other =>
      simp only [Change.apply, List.mem_cons, Change.remove.injEq]
      tauto

theorem replay_insertsFirst (present : α → Prop) (log : List (Change α)) (element : α) :
    replay present (insertsFirst log) element ↔ .remove element ∉ log ∧ (.insert element ∈ log ∨ present element) := by
  have inserts : ∀ change ∈ log.filter Change.isInsert, change.isInsert :=
    fun change mem => (List.mem_filter.mp mem).2
  have removes : ∀ change ∈ log.filter fun change => !change.isInsert, ¬ change.isInsert := by
    intro change mem
    simpa using (List.mem_filter.mp mem).2
  rw [insertsFirst, replay_append, replay_of_removes removes, replay_of_inserts inserts]
  simp [Change.isInsert]

variable [DecidableEq α]

/-- In order, the last change decides. -/
theorem replay_iff_lastChange (present : α → Prop) (log : List (Change α)) (element : α) :
    replay present log element ↔
      lastChange log element = some (.insert element) ∨ (lastChange log element = none ∧ present element) := by
  induction log using List.reverseRecOn with
  | nil => simp [replay, lastChange]
  | append_singleton first last ih =>
    rw [replay_append]
    change last.apply (replay present first) element ↔ _
    by_cases same : last.element = element
    · have decided : lastChange (first ++ [last]) element = some last := by
        simp [lastChange, same]
      rw [decided]
      cases last with
      | insert other => simp_all [Change.apply, Change.element]
      | remove other => simp_all [Change.apply, Change.element]
    · have earlier : lastChange (first ++ [last]) element = lastChange first element := by
        simp [lastChange, same]
      rw [earlier, ← ih]
      have different : element ≠ last.element := fun equal => same equal.symm
      cases last with
      | insert other =>
        simp only [Change.element] at different
        simp [Change.apply, different]
      | remove other =>
        simp only [Change.element] at different
        simp [Change.apply, different]

theorem lastChange_eq_none_iff {log : List (Change α)} {element : α} :
    lastChange log element = none ↔ ∀ change ∈ log, change.element ≠ element := by
  simp [lastChange]

theorem lastChange_mem {log : List (Change α)} {element : α} {change : Change α}
    (last : lastChange log element = some change) : change ∈ log ∧ change.element = element := by
  have mem := List.mem_of_getLast? last
  simpa using List.mem_filter.mp mem

/-- Moving the insertions to the front changes the fate of an element exactly
when it returns. -/
theorem replay_insertsFirst_iff (present : α → Prop) (log : List (Change α)) (element : α) :
    (replay present (insertsFirst log) element ↔ replay present log element) ↔ ¬ Returns log element := by
  rw [replay_insertsFirst, replay_iff_lastChange, Returns]
  cases last : lastChange log element with
  | none =>
    have untouched := lastChange_eq_none_iff.mp last
    have notInserted : .insert element ∉ log := fun mem => untouched _ mem rfl
    have notRemoved : .remove element ∉ log := fun mem => untouched _ mem rfl
    simp [notInserted, notRemoved]
  | some change =>
    obtain ⟨mem, about⟩ := lastChange_mem last
    cases change with
    | insert other =>
      cases about
      change .insert other ∈ log at mem
      change (Change.remove other ∉ log ∧ (Change.insert other ∈ log ∨ present other) ↔ _) ↔ _
      simp [mem, Change.element]
    | remove other =>
      cases about
      change .remove other ∈ log at mem
      simp [mem, Change.element]

end TutaBridge.Std
