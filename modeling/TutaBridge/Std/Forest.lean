import Mathlib.Data.List.Nodup
import Mathlib.Data.List.Perm.Subperm

/-!
# Forests grown from a relation

A forest is grown from its roots by a function that gives each value its children,
to a bounded depth. `Descends` says at which depth below the roots a value is; what
is in the grown forest is what descends from its roots within the bound. When every
value is a child of at most one other and no root is a child, depths are unique and
bounded by the number of values, so the bound can be chosen large enough.
-/

namespace TutaBridge.Std

variable {α : Type}

/-- A value with the trees below it. -/
inductive RoseTree (α : Type) where
  | node (value : α) (children : List (RoseTree α))

namespace RoseTree

def value : RoseTree α → α
  | node value _ => value

def children : RoseTree α → List (RoseTree α)
  | node _ children => children

/-- The values of a forest, parents first, each with its level. -/
def flatten : Nat → List (RoseTree α) → List (Nat × α)
  | _, [] => []
  | level, .node value children :: rest =>
    (level, value) :: (flatten (level + 1) children ++ flatten level rest)

/-- The values from a root down to the first value that `isTarget`, parents
first. -/
def pathTo (isTarget : α → Bool) : List (RoseTree α) → Option (List α)
  | [] => none
  | .node value children :: rest =>
    if isTarget value then some [value]
    else
      match pathTo isTarget children with
      | some path => some (value :: path)
      | none => pathTo isTarget rest

/-- The first tree whose value `isTarget`, parents first. -/
def findTree (isTarget : α → Bool) : List (RoseTree α) → Option (RoseTree α)
  | [] => none
  | .node value children :: rest =>
    if isTarget value then some (.node value children)
    else
      match findTree isTarget children with
      | some found => some found
      | none => findTree isTarget rest

/-- The values of a forest, parents first. -/
def preorder : List (RoseTree α) → List α
  | [] => []
  | .node value children :: rest => value :: (preorder children ++ preorder rest)

/-- The tree of a value, to the given depth. -/
def grow (below : α → List α) : Nat → α → RoseTree α
  | 0, value => .node value []
  | depth + 1, value => .node value ((below value).map (grow below depth))

@[simp] theorem value_grow (below : α → List α) (depth : Nat) (value : α) :
    (grow below depth value).value = value := by
  cases depth <;> rfl

/-- The tree is at the given depth of the forest. -/
inductive Reaches : Nat → List (RoseTree α) → RoseTree α → Prop where
  | here {forest : List (RoseTree α)} {tree : RoseTree α} (mem : tree ∈ forest) : Reaches 0 forest tree
  | under {forest : List (RoseTree α)} {tree target : RoseTree α} {depth : Nat} (mem : tree ∈ forest)
      (later : Reaches depth tree.children target) : Reaches (depth + 1) forest target

theorem Reaches.child {forest : List (RoseTree α)} {tree child : RoseTree α} {depth : Nat}
    (reaches : Reaches depth forest tree) (isChild : child ∈ tree.children) : Reaches (depth + 1) forest child := by
  induction reaches with
  | here mem => exact .under mem (.here isChild)
  | under mem _ ih => exact .under mem (ih isChild)

theorem reaches_cons_iff {value : α} {children rest : List (RoseTree α)} {target : RoseTree α}
    {depth : Nat} :
    Reaches depth (.node value children :: rest) target ↔ (depth = 0 ∧ target = .node value children) ∨
        (∃ before, depth = before + 1 ∧ Reaches before children target) ∨ Reaches depth rest target := by
  constructor
  · intro reaches
    cases reaches with
    | here mem =>
      rcases List.mem_cons.mp mem with isHead | later
      · exact .inl ⟨rfl, isHead⟩
      · exact .inr (.inr (.here later))
    | under mem later =>
      rcases List.mem_cons.mp mem with rfl | inRest
      · exact .inr (.inl ⟨_, rfl, later⟩)
      · exact .inr (.inr (.under inRest later))
  · rintro (⟨rfl, rfl⟩ | ⟨before, rfl, reaches⟩ | later)
    · exact .here List.mem_cons_self
    · exact .under List.mem_cons_self reaches
    · cases later with
      | here mem => exact .here (List.mem_cons_of_mem _ mem)
      | under mem deeper => exact .under (List.mem_cons_of_mem _ mem) deeper

theorem not_reaches_nil {target : RoseTree α} {depth : Nat} : ¬ Reaches depth [] target := by
  intro reaches
  cases reaches with
  | here mem => cases mem
  | under mem => cases mem

/-- The flattened forest has the values at their depths. -/
theorem mem_flatten_iff {base level : Nat} {forest : List (RoseTree α)} {value : α} :
    (level, value) ∈ flatten base forest ↔
      ∃ depth target, Reaches depth forest target ∧ target.value = value ∧ level = base + depth := by
  fun_induction flatten base forest with
  | case1 => simp [not_reaches_nil]
  | case2 base head children rest inChildren inRest =>
    rw [List.mem_cons, List.mem_append, inChildren, inRest]
    simp only [reaches_cons_iff]
    constructor
    · rintro (isHead | ⟨depth, target, reaches, rfl, rfl⟩ | ⟨depth, target, reaches, rfl, rfl⟩)
      · cases isHead
        exact ⟨0, _, .inl ⟨rfl, rfl⟩, rfl, rfl⟩
      · exact ⟨depth + 1, target, .inr (.inl ⟨depth, rfl, reaches⟩), rfl, by omega⟩
      · exact ⟨depth, target, .inr (.inr reaches), rfl, rfl⟩
    · rintro ⟨depth, target, ⟨rfl, rfl⟩ | ⟨before, rfl, reaches⟩ | reaches, rfl, rfl⟩
      · exact .inl rfl
      · exact .inr (.inl ⟨before, target, reaches, rfl, by omega⟩)
      · exact .inr (.inr ⟨depth, target, reaches, rfl, rfl⟩)

theorem flatten_append (level : Nat) (first second : List (RoseTree α)) :
    flatten level (first ++ second) = flatten level first ++ flatten level second := by
  induction first with
  | nil => simp [flatten]
  | cons head rest ih =>
    cases head
    simp [flatten, ih]

/-! ## The order of a flattened forest -/

section Order

variable {forest : List (RoseTree α)}

theorem map_snd_flatten (level : Nat) (forest : List (RoseTree α)) :
    (flatten level forest).map Prod.snd = preorder forest := by
  fun_induction flatten level forest with
  | case1 => rw [List.map_nil, preorder]
  | case2 level value children rest inChildren inRest =>
    rw [List.map_cons, List.map_append, inChildren, inRest, preorder]

theorem preorder_cons (tree : RoseTree α) (rest : List (RoseTree α)) :
    preorder (tree :: rest) = tree.value :: (preorder tree.children ++ preorder rest) := by
  cases tree
  rw [preorder, value, children]

theorem preorder_singleton (tree : RoseTree α) : preorder [tree] = tree.value :: preorder tree.children := by
  rw [preorder_cons, preorder, List.append_nil]

theorem preorder_append (first second : List (RoseTree α)) :
    preorder (first ++ second) = preorder first ++ preorder second := by
  induction first with
  | nil => rw [preorder, List.nil_append, List.nil_append]
  | cons tree rest ih =>
    rw [List.cons_append, preorder_cons, preorder_cons, ih, List.cons_append, List.append_assoc]

theorem preorder_sublist {trees : List (RoseTree α)} (sublist : trees.Sublist forest) :
    (preorder trees).Sublist (preorder forest) := by
  induction sublist with
  | slnil => exact List.Sublist.refl _
  | cons tree _ ih =>
    rw [preorder_cons]
    exact (ih.trans (List.sublist_append_right _ _)).cons _
  | cons_cons tree _ ih =>
    rw [preorder_cons, preorder_cons]
    exact ((List.Sublist.refl _).append ih).cons_cons _

/-- What is in a tree of the forest stands together in the forest's order. -/
theorem Reaches.preorder_sublist {depth : Nat} {tree : RoseTree α} (reaches : Reaches depth forest tree) :
    (preorder [tree]).Sublist (preorder forest) := by
  induction reaches with
  | here mem => exact RoseTree.preorder_sublist (List.singleton_sublist.mpr mem)
  | @under forest tree _ _ mem _ ih =>
    have inTree : (preorder tree.children).Sublist (preorder [tree]) := by
      rw [preorder_singleton]
      exact List.sublist_cons_self _ _
    exact ih.trans (inTree.trans (RoseTree.preorder_sublist (List.singleton_sublist.mpr mem)))

theorem mem_preorder_iff {value : α} :
    value ∈ preorder forest ↔ ∃ depth target, Reaches depth forest target ∧ target.value = value := by
  rw [← map_snd_flatten 0 forest, List.mem_map]
  constructor
  · rintro ⟨⟨level, found⟩, mem, rfl⟩
    obtain ⟨depth, target, reaches, isValue, -⟩ := mem_flatten_iff.mp mem
    exact ⟨depth, target, reaches, isValue⟩
  · rintro ⟨depth, target, reaches, rfl⟩
    exact ⟨(0 + depth, target.value), mem_flatten_iff.mpr ⟨depth, target, reaches, rfl, rfl⟩, rfl⟩

end Order

section Paths

variable {isTarget : α → Bool} {forest : List (RoseTree α)}

theorem pathTo_append (first second : List (RoseTree α)) :
    pathTo isTarget (first ++ second) = (pathTo isTarget first).or (pathTo isTarget second) := by
  fun_induction pathTo isTarget first with
  | case1 => simp
  | case2 head children rest isHead => simp [pathTo, isHead]
  | case3 head children rest notHead path found => simp [pathTo, notHead, found]
  | case4 head children rest notHead notBelow inChildren inRest =>
    simpa [pathTo, notHead, notBelow] using inRest

/-- A path is found when a target is in the forest. -/
theorem isSome_pathTo {depth : Nat} {target : RoseTree α} (reaches : Reaches depth forest target)
    (isTargetValue : isTarget target.value = true) : (pathTo isTarget forest).isSome := by
  fun_induction pathTo isTarget forest generalizing depth with
  | case1 => exact absurd reaches not_reaches_nil
  | case2 => rfl
  | case3 => rfl
  | case4 head children rest notHead notBelow inChildren inRest =>
    rcases reaches_cons_iff.mp reaches with ⟨_, rfl⟩ | ⟨before, _, deeper⟩ | later
    · exact absurd isTargetValue notHead
    · have found := inChildren deeper
      rw [notBelow] at found
      cases found
    · exact inRest later

/-- A path leads to a target and is as long as the target is deep. -/
theorem pathTo_eq_some_imp {path : List α} (found : pathTo isTarget forest = some path) :
    ∃ depth target, Reaches depth forest target ∧ isTarget target.value = true ∧
      path.length = depth + 1 ∧ path.getLast? = some target.value := by
  fun_induction pathTo isTarget forest generalizing path with
  | case1 => cases found
  | case2 head children rest isHead =>
    cases found
    exact ⟨0, _, .here List.mem_cons_self, isHead, rfl, rfl⟩
  | case3 head children rest notHead deeper isDeeper inChildren =>
    cases found
    obtain ⟨depth, target, reaches, isTargetValue, length, last⟩ := inChildren isDeeper
    refine ⟨depth + 1, target, .under List.mem_cons_self reaches, isTargetValue, ?_, ?_⟩
    · rw [List.length_cons, length]
    · rw [List.getLast?_cons, last]
      rfl
  | case4 head children rest notHead notBelow inChildren inRest =>
    obtain ⟨depth, target, reaches, others⟩ := inRest found
    exact ⟨depth, target, reaches_cons_iff.mpr (.inr (.inr reaches)), others⟩

/-- The tree that is found is the one the path leads to. -/
theorem map_value_findTree : (findTree isTarget forest).map value = (pathTo isTarget forest).bind List.getLast? := by
  fun_induction findTree isTarget forest with
  | case1 => rw [pathTo, Option.map_none, Option.bind_none]
  | case2 head children rest isHead =>
    rw [pathTo, if_pos isHead]
    rfl
  | case3 head children rest notHead found isFound inChildren =>
    rw [isFound] at inChildren
    rw [pathTo, if_neg notHead]
    cases isPath : pathTo isTarget children with
    | none =>
      rw [isPath] at inChildren
      cases inChildren
    | some path =>
      rw [isPath, Option.bind_some] at inChildren
      rw [Option.bind_some, List.getLast?_cons, ← inChildren]
      rfl
  | case4 head children rest notHead notBelow inChildren inRest =>
    rw [notBelow] at inChildren
    rw [pathTo, if_neg notHead]
    cases isPath : pathTo isTarget children with
    | none => exact inRest
    | some path =>
      obtain ⟨-, target, -, -, -, last⟩ := pathTo_eq_some_imp isPath
      rw [isPath, Option.bind_some, last] at inChildren
      cases inChildren

theorem findTree_append (first second : List (RoseTree α)) :
    findTree isTarget (first ++ second) = (findTree isTarget first).or (findTree isTarget second) := by
  fun_induction findTree isTarget first with
  | case1 => simp
  | case2 head children rest isHead => simp [findTree, isHead]
  | case3 head children rest notHead found isFound => simp [findTree, notHead, isFound]
  | case4 head children rest notHead notBelow inChildren inRest =>
    simpa [findTree, notHead, notBelow] using inRest

end Paths

end RoseTree

/-! ## Depths -/

/-- The value is at the given depth below the roots. -/
inductive Descends (below : α → List α) (roots : List α) : Nat → α → Prop where
  | root {value : α} (mem : value ∈ roots) : Descends below roots 0 value
  | child {value child : α} {depth : Nat} (above : Descends below roots depth value)
      (mem : child ∈ below value) : Descends below roots (depth + 1) child

namespace Descends

variable {below : α → List α} {roots : List α}

/-- What descends within the bound is in the grown forest. -/
theorem reaches {depth bound : Nat} {value : α} (descends : Descends below roots depth value)
    (inBound : depth ≤ bound) :
    RoseTree.Reaches depth (roots.map (RoseTree.grow below bound)) (RoseTree.grow below (bound - depth) value) := by
  induction descends with
  | root mem => exact .here (List.mem_map.mpr ⟨_, mem, rfl⟩)
  | @child parent child depth _ mem ih =>
    have above := ih (Nat.le_of_succ_le inBound)
    obtain ⟨left, isLeft⟩ : ∃ left, bound - depth = left + 1 := ⟨bound - (depth + 1), by omega⟩
    rw [isLeft] at above
    have isChild := above.child (List.mem_map.mpr ⟨child, mem, rfl⟩)
    rwa [show bound - (depth + 1) = left by omega]

theorem of_reaches_from {depth bound base : Nat} {values : List α} {target : RoseTree α}
    (descend : ∀ value ∈ values, Descends below roots base value)
    (reaches : RoseTree.Reaches depth (values.map (RoseTree.grow below bound)) target) :
    Descends below roots (base + depth) target.value := by
  induction depth generalizing values bound base with
  | zero =>
    cases reaches with
    | here mem =>
      obtain ⟨value, isValue, rfl⟩ := List.mem_map.mp mem
      rw [RoseTree.value_grow]
      exact descend value isValue
  | succ depth ih =>
    cases reaches with
    | under mem later =>
      obtain ⟨value, isValue, rfl⟩ := List.mem_map.mp mem
      rw [Nat.add_comm depth 1, ← Nat.add_assoc]
      cases bound with
      | zero => exact absurd later RoseTree.not_reaches_nil
      | succ bound =>
        refine @ih bound (base + 1) (below value) (fun child isChild => ?_) later
        exact .child (descend value isValue) isChild

/-- What is in the grown forest descends from its roots. -/
theorem of_reaches {depth bound : Nat} {target : RoseTree α}
    (reaches : RoseTree.Reaches depth (roots.map (RoseTree.grow below bound)) target) :
    Descends below roots depth target.value := by
  have descends := of_reaches_from (fun value mem => .root mem) reaches
  rwa [Nat.zero_add] at descends

section Unique

variable
  (single : ∀ {depth other first second child}, Descends below roots depth first →
    Descends below roots other second → child ∈ below first → child ∈ below second → first = second)
  (parentless : ∀ {depth root value}, root ∈ roots → Descends below roots depth value → root ∉ below value)

include single parentless

theorem depth_unique {depth other : Nat} {value : α} (descends : Descends below roots depth value)
    (again : Descends below roots other value) : depth = other := by
  induction descends generalizing other with
  | root mem =>
    cases again with
    | root => rfl
    | child above isChild => exact absurd isChild (parentless mem above)
  | child above isChild ih =>
    cases again with
    | root mem => exact absurd isChild (parentless mem above)
    | child otherAbove isOther =>
      obtain rfl := single above otherAbove isChild isOther
      rw [ih otherAbove]

/-- A value is less deep than there are values. -/
theorem depth_lt {all : List α} (inAll : ∀ depth value, Descends below roots depth value → value ∈ all)
    {depth : Nat} {value : α} (descends : Descends below roots depth value) : depth < all.length := by
  have ancestors : ∃ values : List α, values.length = depth + 1 ∧ values.Nodup ∧
      ∀ ancestor ∈ values, ∃ above ≤ depth, Descends below roots above ancestor := by
    induction descends with
    | root mem =>
      exact ⟨[_], rfl, List.nodup_singleton _, fun ancestor isAncestor =>
        ⟨0, Nat.le_refl 0, List.mem_singleton.mp isAncestor ▸ .root mem⟩⟩
    | @child parent child depth above mem ih =>
      obtain ⟨values, length, distinct, descend⟩ := ih
      refine ⟨child :: values, by rw [List.length_cons, length], ?_, ?_⟩
      · refine List.nodup_cons.mpr ⟨fun isAncestor => ?_, distinct⟩
        obtain ⟨before, less, again⟩ := descend child isAncestor
        have same := depth_unique single parentless (.child above mem) again
        omega
      · intro ancestor isAncestor
        rcases List.mem_cons.mp isAncestor with rfl | earlier
        · exact ⟨depth + 1, Nat.le_refl _, .child above mem⟩
        · obtain ⟨before, less, again⟩ := descend ancestor earlier
          exact ⟨before, Nat.le_succ_of_le less, again⟩
  obtain ⟨values, length, distinct, descend⟩ := ancestors
  have contained : values ⊆ all := fun ancestor isAncestor =>
    (descend ancestor isAncestor).elim fun above both => inAll above ancestor both.2
  have bounded := (distinct.subperm contained).length_le
  omega

end Unique

end Descends

end TutaBridge.Std
