import TutaBridge.Std.Forest

/-!
# The order of a grown forest

In a forest that is grown deep enough every value that descends from the roots stands once: behind
its parent and before the next sibling of the parent. Siblings keep the order they are given in, and
the path to a value is its lineage.
-/

namespace TutaBridge.Std

variable {bound : Nat} {depth : Nat}

variable {α : Type} {below : α → List α} {roots : List α}

/-! ## Pairs in order -/

theorem sublist_pair_or {first second : α} {values : List α} (firstMember : first ∈ values)
    (secondMember : second ∈ values) (different : first ≠ second) :
    [first, second].Sublist values ∨ [second, first].Sublist values := by
  induction values with
  | nil => cases firstMember
  | cons head rest ih =>
    rcases List.mem_cons.mp firstMember with rfl | firstInRest
    · have inRest := List.mem_of_ne_of_mem different.symm secondMember
      exact .inl ((List.singleton_sublist.mpr inRest).cons_cons _)
    · rcases List.mem_cons.mp secondMember with rfl | secondInRest
      · exact .inr ((List.singleton_sublist.mpr firstInRest).cons_cons _)
      · exact (ih firstInRest secondInRest).imp (List.Sublist.cons _) (List.Sublist.cons _)

/-- Where nothing stands twice, two values stand in one order. -/
theorem not_sublist_swap {first second : α} {values : List α} (distinct : values.Nodup)
    (inOrder : [first, second].Sublist values) : ¬[second, first].Sublist values := by
  induction values with
  | nil => cases inOrder
  | cons head rest ih =>
    obtain ⟨fresh, distinctRest⟩ := List.nodup_cons.mp distinct
    intro swapped
    rcases List.sublist_cons_iff.mp inOrder with inRest | ⟨_, isHead, secondInRest⟩
    · rcases List.sublist_cons_iff.mp swapped with swappedInRest | ⟨_, isHead, -⟩
      · exact ih distinctRest inRest swappedInRest
      · cases isHead
        exact fresh (inRest.subset (by simp))
    · cases isHead
      rcases List.sublist_cons_iff.mp swapped with swappedInRest | ⟨_, isHead, firstInRest⟩
      · exact fresh (swappedInRest.subset (by simp))
      · cases isHead
        exact fresh (List.singleton_sublist.mp secondInRest)

/-! ## Lineages -/

/-- The value is below the roots, with its ancestors from the root down. -/
inductive Lineage (below : α → List α) (roots : List α) : List α → α → Prop where
  | root {value : α} (mem : value ∈ roots) : Lineage below roots [] value
  | child {ancestors : List α} {parent child : α} (above : Lineage below roots ancestors parent)
      (mem : child ∈ below parent) : Lineage below roots (ancestors ++ [parent]) child

theorem Lineage.descends {ancestors : List α} {value : α} (lineage : Lineage below roots ancestors value) :
    Descends below roots ancestors.length value := by
  induction lineage with
  | root mem => exact .root mem
  | child _ mem ih =>
    rw [List.length_append, List.length_singleton]
    exact .child ih mem

theorem Descends.exists_lineage {value : α} (descends : Descends below roots depth value) :
    ∃ ancestors, Lineage below roots ancestors value := by
  induction descends with
  | root mem => exact ⟨[], .root mem⟩
  | child _ mem ih =>
    obtain ⟨ancestors, lineage⟩ := ih
    exact ⟨_, .child lineage mem⟩

/-- Below one of the roots. -/
theorem Descends.exists_root {value : α} (descends : Descends below roots depth value) :
    ∃ root ∈ roots, Descends below [root] depth value := by
  induction descends with
  | root mem => exact ⟨_, mem, .root (List.mem_singleton.mpr rfl)⟩
  | child _ mem ih =>
    obtain ⟨root, isRoot, above⟩ := ih
    exact ⟨root, isRoot, .child above mem⟩

/-- Below what is below the roots. -/
theorem Descends.trans {depth more : Nat} {value target : α} (descends : Descends below roots depth value)
    (further : Descends below [value] more target) : Descends below roots (depth + more) target := by
  induction further with
  | root mem =>
    rw [List.mem_singleton.mp mem]
    exact descends
  | child _ mem ih => exact .child ih mem

theorem Descends.of_below {value target : α} (descends : Descends below (below value) depth target) :
    Descends below [value] (depth + 1) target := by
  induction descends with
  | root mem => exact .child (.root (List.mem_singleton.mpr rfl)) mem
  | child _ mem ih => exact .child ih mem

/-! ## Grown trees -/

namespace RoseTree

theorem children_grow_zero (below : α → List α) (value : α) : (grow below 0 value).children = [] := rfl

theorem children_grow_succ (below : α → List α) (depth : Nat) (value : α) :
    (grow below (depth + 1) value).children = (below value).map (grow below depth) := rfl

/-- A tree that is grown deep enough does not change when it is grown deeper. -/
theorem grow_add {value : α}
    (shallow : ∀ below_depth target, Descends below [value] below_depth target → below_depth ≤ depth) (more : Nat) :
    grow below (depth + more) value = grow below depth value := by
  induction depth generalizing value with
  | zero =>
    have childless : below value = [] := by
      refine List.eq_nil_iff_forall_not_mem.mpr fun child isChild => ?_
      exact absurd (shallow 1 child (.child (.root (List.mem_singleton.mpr rfl)) isChild)) (by omega)
    cases more with
    | zero => rfl
    | succ more =>
      rw [Nat.zero_add, grow, grow, childless, List.map_nil]
  | succ depth ih =>
    rw [Nat.add_right_comm, grow, grow]
    refine congrArg _ (List.map_congr_left fun child isChild => ih ?_)
    intro belowDepth target descends
    have isRoot : Descends below (below value) belowDepth target := by
      induction descends with
      | root mem =>
        rw [List.mem_singleton.mp mem]
        exact .root isChild
      | child _ mem ih =>
        exact .child (ih) mem
    exact Nat.le_of_succ_le_succ (shallow _ _ (.of_below isRoot))

theorem exists_descends_of_mem_preorder {values : List α} {target : α}
    (mem : target ∈ preorder (values.map (grow below bound))) :
    ∃ value ∈ values, ∃ depth, Descends below [value] depth target := by
  obtain ⟨depth, tree, reaches, rfl⟩ := mem_preorder_iff.mp mem
  obtain ⟨value, isValue, descends⟩ := (Descends.of_reaches reaches).exists_root
  exact ⟨value, isValue, depth, descends⟩

theorem exists_descends_of_mem_children {value target : α}
    (mem : target ∈ preorder (grow below bound value).children) :
    ∃ further, Descends below [value] (1 + further) target := by
  cases bound with
  | zero =>
    rw [children_grow_zero, preorder] at mem
    cases mem
  | succ bound =>
    rw [children_grow_succ] at mem
    obtain ⟨child, isChild, further, descends⟩ := exists_descends_of_mem_preorder mem
    have atOne : Descends below [value] 1 child := .child (.root (List.mem_singleton.mpr rfl)) isChild
    exact ⟨further, atOne.trans descends⟩

theorem pathTo_cons (isTarget : α → Bool) (tree : RoseTree α) (rest : List (RoseTree α)) :
    pathTo isTarget (tree :: rest) =
      if isTarget tree.value then some [tree.value]
      else ((pathTo isTarget tree.children).map (tree.value :: ·)).or (pathTo isTarget rest) := by
  cases tree with
  | node value children =>
    rw [pathTo, RoseTree.value, RoseTree.children]
    split
    · rfl
    · cases pathTo isTarget children <;> rfl

/-- A path that is found is the lineage of what is found. -/
theorem lineage_of_pathTo {isTarget : α → Bool} {values before path : List α}
    (lineages : ∀ value ∈ values, Lineage below roots before value)
    (found : pathTo isTarget (values.map (grow below bound)) = some path) :
    ∃ ancestors value, path = ancestors ++ [value] ∧ isTarget value = true ∧
      Lineage below roots (before ++ ancestors) value := by
  induction bound generalizing values before path with
  | zero =>
    induction values with
    | nil =>
      rw [List.map_nil, pathTo] at found
      cases found
    | cons value rest inRest =>
      obtain ⟨lineage, others⟩ := List.forall_mem_cons.mp lineages
      rw [List.map_cons, pathTo_cons, value_grow, children_grow_zero, pathTo, Option.map_none,
        Option.none_or] at found
      split at found
      next isValue =>
        cases found
        exact ⟨[], value, rfl, isValue, by rwa [List.append_nil]⟩
      next => exact inRest others found
  | succ bound ih =>
    induction values with
    | nil =>
      rw [List.map_nil, pathTo] at found
      cases found
    | cons value rest inRest =>
      obtain ⟨lineage, others⟩ := List.forall_mem_cons.mp lineages
      rw [List.map_cons, pathTo_cons, value_grow, children_grow_succ] at found
      split at found
      next isValue =>
        cases found
        exact ⟨[], value, rfl, isValue, by rwa [List.append_nil]⟩
      next =>
        rcases Option.or_eq_some_iff.mp found with isBelow | ⟨-, later⟩
        · obtain ⟨deeper, isDeeper, rfl⟩ := Option.map_eq_some_iff.mp isBelow
          have belowValue : ∀ child ∈ below value, Lineage below roots (before ++ [value]) child :=
            fun child isChild => .child lineage isChild
          obtain ⟨ancestors, target, rfl, isTargetValue, found⟩ := ih belowValue isDeeper
          rw [List.append_assoc, List.singleton_append] at found
          exact ⟨value :: ancestors, target, rfl, isTargetValue, found⟩
        · exact inRest others later

/-- The order of siblings is that of the trees that are grown from them. -/
theorem preorder_grow_pair_sublist {values : List α} {first second : α}
    (inOrder : [first, second].Sublist values) :
    (preorder [grow below bound first] ++ preorder [grow below bound second]).Sublist
      (preorder (values.map (grow below bound))) := by
  rw [← preorder_append]
  exact preorder_sublist (inOrder.map (grow below bound))

/-- A parent stands before all that is below it. -/
theorem parent_sublist_preorder {parent child : α} (isChild : child ∈ below parent) :
    [parent, child].Sublist (preorder [grow below (bound + 1) parent]) := by
  rw [preorder_singleton, value_grow, children_grow_succ]
  refine List.Sublist.cons_cons parent (List.singleton_sublist.mpr (mem_preorder_iff.mpr ?_))
  exact ⟨0, grow below bound child, .here (List.mem_map.mpr ⟨child, isChild, rfl⟩), value_grow _ _ _⟩

end RoseTree

/-! ## Siblings -/

/-- The roots, or the children of a value that descends from them. -/
inductive Brood (below : α → List α) (roots : List α) : Nat → List α → Prop where
  | roots : Brood below roots 0 roots
  | below {depth : Nat} {parent : α} (above : Descends below roots depth parent) :
      Brood below roots (depth + 1) (below parent)

namespace Brood

variable {depth bound : Nat} {brood : List α}

theorem descends (isBrood : Brood below roots depth brood) {value : α} (mem : value ∈ brood) :
    Descends below roots depth value := by
  cases isBrood with
  | roots => exact .root mem
  | below above => exact .child above mem

/-- The trees of siblings stand together in the forest's order. -/
theorem preorder_sublist (isBrood : Brood below roots depth brood) (inBound : depth ≤ bound) :
    (RoseTree.preorder (brood.map (RoseTree.grow below (bound - depth)))).Sublist
      (RoseTree.preorder (roots.map (RoseTree.grow below bound))) := by
  cases isBrood with
  | roots => exact List.Sublist.refl _
  | @below depth parent above =>
    have reaches := above.reaches (Nat.le_of_succ_le inBound)
    obtain ⟨left, isLeft⟩ : ∃ left, bound - depth = left + 1 := ⟨bound - (depth + 1), by omega⟩
    have isRest : bound - (depth + 1) = left := by omega
    have inForest := reaches.preorder_sublist
    rw [isLeft, RoseTree.preorder_singleton, RoseTree.children_grow_succ] at inForest
    rw [isRest]
    exact (List.sublist_cons_self _ _).trans inForest

end Brood

/-! ## Everything once and in order -/

section Ordered

variable
  (single : ∀ {depth other first second child}, Descends below roots depth first →
    Descends below roots other second → child ∈ below first → child ∈ below second → first = second)
  (parentless : ∀ {depth root value}, root ∈ roots → Descends below roots depth value → root ∉ below value)

include single

/-- A value has one ancestor at each depth. -/
theorem Descends.ancestor_unique {depth further : Nat} {first second target : α}
    (firstDescends : Descends below roots depth first) (secondDescends : Descends below roots depth second)
    (belowFirst : Descends below [first] further target) (belowSecond : Descends below [second] further target) :
    first = second := by
  induction further generalizing target with
  | zero =>
    cases belowFirst with
    | root isFirst =>
      cases belowSecond with
      | root isSecond => exact (List.mem_singleton.mp isFirst).symm.trans (List.mem_singleton.mp isSecond)
  | succ further ih =>
    cases belowFirst with
    | child aboveFirst isChild =>
      cases belowSecond with
      | child aboveSecond isOther =>
        obtain rfl := single (firstDescends.trans aboveFirst) (secondDescends.trans aboveSecond) isChild isOther
        exact ih aboveFirst aboveSecond

include parentless

/-- A value has one lineage. -/
theorem Lineage.unique {ancestors others : List α} {value : α} (lineage : Lineage below roots ancestors value)
    (again : Lineage below roots others value) : ancestors = others := by
  induction lineage generalizing others with
  | root mem =>
    cases again with
    | root => rfl
    | child above isChild => exact absurd isChild (parentless mem above.descends)
  | child above isChild ih =>
    cases again with
    | root mem => exact absurd isChild (parentless mem above.descends)
    | child otherAbove isOther =>
      obtain rfl := single above.descends otherAbove.descends isChild isOther
      rw [ih otherAbove]

/-- Nothing stands in two trees that are grown from different values of one depth, and in no tree
twice when its children hold nothing twice. -/
theorem RoseTree.nodup_preorder_of_children {bound depth : Nat} {values : List α} (distinct : values.Nodup)
    (descend : ∀ value ∈ values, Descends below roots depth value)
    (distinctChildren : ∀ value ∈ values, (RoseTree.preorder (RoseTree.grow below bound value).children).Nodup) :
    (RoseTree.preorder (values.map (RoseTree.grow below bound))).Nodup := by
  induction values with
  | nil =>
    rw [List.map_nil, RoseTree.preorder]
    exact List.nodup_nil
  | cons value rest ih =>
    obtain ⟨fresh, distinctRest⟩ := List.nodup_cons.mp distinct
    obtain ⟨valueDescends, restDescend⟩ := List.forall_mem_cons.mp descend
    obtain ⟨distinctHead, distinctOthers⟩ := List.forall_mem_cons.mp distinctChildren
    rw [List.map_cons, RoseTree.preorder_cons, RoseTree.value_grow, List.nodup_cons, List.mem_append]
    refine ⟨?_, List.nodup_append'.mpr ⟨distinctHead, ih distinctRest restDescend distinctOthers, ?_⟩⟩
    · rintro (inChildren | inRest)
      · obtain ⟨further, belowValue⟩ := RoseTree.exists_descends_of_mem_children inChildren
        have same := Descends.depth_unique single parentless valueDescends (valueDescends.trans belowValue)
        omega
      · obtain ⟨other, isOther, further, belowOther⟩ := RoseTree.exists_descends_of_mem_preorder inRest
        have otherDescends := restDescend other isOther
        have same := Descends.depth_unique single parentless valueDescends (otherDescends.trans belowOther)
        obtain rfl : further = 0 := by omega
        cases belowOther with
        | root isValue =>
          rw [List.mem_singleton.mp isValue] at fresh
          exact fresh isOther
    · intro target inChildren inRest
      obtain ⟨further, belowValue⟩ := RoseTree.exists_descends_of_mem_children inChildren
      obtain ⟨other, isOther, others, belowOther⟩ := RoseTree.exists_descends_of_mem_preorder inRest
      have otherDescends := restDescend other isOther
      have same := Descends.depth_unique single parentless (valueDescends.trans belowValue)
        (otherDescends.trans belowOther)
      obtain rfl : others = 1 + further := by omega
      rw [Descends.ancestor_unique single valueDescends otherDescends belowValue belowOther] at fresh
      exact fresh isOther

/-- Nothing stands twice in the order of a grown forest. -/
theorem RoseTree.nodup_preorder_grow (distinctBelow : ∀ value, (below value).Nodup) {bound depth : Nat}
    {values : List α} (distinct : values.Nodup) (descend : ∀ value ∈ values, Descends below roots depth value) :
    (RoseTree.preorder (values.map (RoseTree.grow below bound))).Nodup := by
  induction bound generalizing depth values with
  | zero =>
    refine RoseTree.nodup_preorder_of_children single parentless distinct descend fun value _ => ?_
    rw [RoseTree.children_grow_zero, RoseTree.preorder]
    exact List.nodup_nil
  | succ bound ih =>
    refine RoseTree.nodup_preorder_of_children single parentless distinct descend fun value isValue => ?_
    rw [RoseTree.children_grow_succ]
    exact ih (distinctBelow value) fun child isChild => .child (descend value isValue) isChild

end Ordered

/-! ## The order of a grown forest -/

section Order

variable {bound depth : Nat}

/-- A parent stands before its children. -/
theorem Descends.parent_sublist {parent child : α} (descends : Descends below roots depth parent)
    (inBound : depth < bound) (isChild : child ∈ below parent) :
    [parent, child].Sublist (RoseTree.preorder (roots.map (RoseTree.grow below bound))) := by
  have inForest := (descends.reaches (Nat.le_of_lt inBound)).preorder_sublist
  obtain ⟨left, isLeft⟩ : ∃ left, bound - depth = left + 1 := ⟨bound - (depth + 1), by omega⟩
  rw [isLeft] at inForest
  exact (RoseTree.parent_sublist_preorder isChild).trans inForest

namespace Brood

variable {brood : List α} {first second : α}

/-- Siblings keep their order. -/
theorem pair_sublist (isBrood : Brood below roots depth brood) (inBound : depth ≤ bound)
    (inOrder : [first, second].Sublist brood) :
    [first, second].Sublist (RoseTree.preorder (roots.map (RoseTree.grow below bound))) := by
  refine List.Sublist.trans ?_ (isBrood.preorder_sublist inBound)
  refine List.Sublist.trans ?_ (RoseTree.preorder_grow_pair_sublist inOrder)
  rw [RoseTree.preorder_singleton, RoseTree.preorder_singleton, RoseTree.value_grow, RoseTree.value_grow]
  exact List.Sublist.cons_cons first ((List.singleton_sublist.mpr List.mem_cons_self).trans
    (List.sublist_append_right _ _))

/-- Where nothing stands twice, siblings stand in no other order than theirs. -/
theorem of_pair_sublist (isBrood : Brood below roots depth brood) (inBound : depth ≤ bound)
    (distinct : (RoseTree.preorder (roots.map (RoseTree.grow below bound))).Nodup)
    (firstMember : first ∈ brood) (secondMember : second ∈ brood)
    (inOrder : [first, second].Sublist (RoseTree.preorder (roots.map (RoseTree.grow below bound)))) :
    [first, second].Sublist brood := by
  have different : first ≠ second := by
    rintro rfl
    have twice := distinct.sublist inOrder
    simp at twice
  refine (sublist_pair_or firstMember secondMember different).resolve_right fun swapped => ?_
  exact not_sublist_swap distinct inOrder (isBrood.pair_sublist inBound swapped)

/-- The children of a value stand before its next sibling. -/
theorem child_sublist (isBrood : Brood below roots depth brood) (inBound : depth < bound) {child : α}
    (inOrder : [first, second].Sublist brood) (isChild : child ∈ below first) :
    [child, second].Sublist (RoseTree.preorder (roots.map (RoseTree.grow below bound))) := by
  refine List.Sublist.trans ?_ (isBrood.preorder_sublist (Nat.le_of_lt inBound))
  refine List.Sublist.trans ?_ (RoseTree.preorder_grow_pair_sublist inOrder)
  obtain ⟨left, isLeft⟩ : ∃ left, bound - depth = left + 1 := ⟨bound - (depth + 1), by omega⟩
  have behind : [child].Sublist (RoseTree.preorder [RoseTree.grow below (bound - depth) first]) := by
    rw [isLeft]
    exact (List.sublist_cons_self _ _).trans (RoseTree.parent_sublist_preorder isChild)
  refine behind.append (List.singleton_sublist.mpr ?_)
  rw [RoseTree.preorder_singleton, RoseTree.value_grow]
  exact List.mem_cons_self

end Brood

end Order

end TutaBridge.Std
