import Mathlib.Data.List.Nodup
import Mathlib.Data.List.Flatten

/-!
# One element before another

That one element of a list stands before another is that the two are a sublist of it. What
keeps the order of a list keeps this, so it is followed through a list of groups, and of two
elements of a list without repetitions one stands before the other.
-/

namespace TutaBridge.Std

variable {α β κ : Type}

/-- The first element stands before the second in the list. -/
def Before (first second : α) (list : List α) : Prop := [first, second].Sublist list

namespace Before

variable {first second : α} {list : List α}

section

variable (before : Before first second list)

include before

theorem mem : first ∈ list ∧ second ∈ list :=
  ⟨before.subset List.mem_cons_self, before.subset (List.mem_cons_of_mem _ List.mem_cons_self)⟩

theorem reverse : Before second first list.reverse :=
  List.reverse_sublist.mpr before

theorem map (change : α → β) : Before (change first) (change second) (list.map change) :=
  List.Sublist.map change before

theorem filter {keep : α → Bool} (keepFirst : keep first = true)
    (keepSecond : keep second = true) : Before first second (list.filter keep) := by
  have kept := List.Sublist.filter keep before
  rwa [List.filter_cons_of_pos keepFirst, List.filter_cons_of_pos keepSecond, List.filter_nil] at kept

/-- What stands before another element stands at an earlier place. -/
theorem places :
    ∃ place later : Nat, place < later ∧ list[place]? = some first ∧ list[later]? = some second := by
  induction list with
  | nil => cases before
  | cons head rest ih =>
    rcases List.sublist_cons_iff.mp before with inRest | ⟨tail, same, inRest⟩
    · obtain ⟨place, later, ascends, isFirst, isSecond⟩ := ih inRest
      exact ⟨place + 1, later + 1, Nat.succ_lt_succ ascends, isFirst, isSecond⟩
    · obtain ⟨rfl, rfl⟩ := List.cons.inj same
      obtain ⟨later, isSecond⟩ := List.mem_iff_getElem?.mp (List.singleton_sublist.mp inRest)
      exact ⟨0, later + 1, Nat.succ_pos later, rfl, isSecond⟩

end

end Before

/-- Of two elements one stands before the other. -/
theorem before_or_before {first second : α} {list : List α} (isFirst : first ∈ list)
    (isSecond : second ∈ list) (different : first ≠ second) :
    Before first second list ∨ Before second first list := by
  induction list with
  | nil => cases isFirst
  | cons head rest ih =>
    rcases List.mem_cons.mp isFirst with rfl | firstLater
    · have secondLater := (List.mem_cons.mp isSecond).resolve_left different.symm
      exact Or.inl ((List.singleton_sublist.mpr secondLater).cons_cons first)
    · rcases List.mem_cons.mp isSecond with rfl | secondLater
      · exact Or.inr ((List.singleton_sublist.mpr firstLater).cons_cons second)
      · exact (ih firstLater secondLater).imp (List.Sublist.cons head)
          (List.Sublist.cons head)

section Groups

variable {group : κ → List β} {first second : β} {keys : List κ} {key other : κ}

/-- The order within a group is that of the groups put together. -/
theorem Before.flatMap_of_mem (isKey : key ∈ keys) (before : Before first second (group key)) :
    Before first second (keys.flatMap group) := by
  have whole := List.sublist_flatten_of_mem (List.mem_map_of_mem (f := group) isKey)
  rw [List.flatMap]
  exact List.Sublist.trans before whole

/-- An element of an earlier group stands before one of a later group. -/
theorem Before.flatMap_of_before (before : Before key other keys) (isFirst : first ∈ group key)
    (isSecond : second ∈ group other) : Before first second (keys.flatMap group) := by
  have groups : [group key, group other].Sublist (keys.map group) := List.Sublist.map group before
  have pair : [first, second].Sublist [group key, group other].flatten := by
    simp only [List.flatten_cons, List.flatten_nil, List.append_nil]
    exact (List.singleton_sublist.mpr isFirst).append (List.singleton_sublist.mpr isSecond)
  rw [List.flatMap]
  exact List.Sublist.trans pair groups.flatten

end Groups

end TutaBridge.Std
