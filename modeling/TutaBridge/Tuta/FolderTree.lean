import TutaBridge.Std.ForestOrder
import TutaBridge.Tuta.FolderSystem

/-!
# The folder tree is complete and consistent

What `FolderSystem` makes of a flat list is told from the parent links alone: a folder that they lead
to is listed once, at the level of its ancestors, behind its parent and before what follows the
parent; its path is its ancestors and itself; and the recursion that builds the trees ends.
-/

namespace TutaBridge.Tuta

open TutaBridge.Std

variable {folder : MailSet} {ancestors : List MailSet}

variable {folders : List MailSet}

/-! ## What the parent links say -/

def IsParent (parent child : MailSet) : Prop :=
  ∃ ref, child.parentFolder = some ref ∧ parent.elementId = some ref.elementId

/-- A folder with its ancestors, from a visible system folder or a top-level custom folder down. -/
inductive Ancestors (folders : List MailSet) : List MailSet → MailSet → Prop where
  | root {folder : MailSet} (mem : folder ∈ folders)
      (isRoot : folder.isVisibleSystem = true ∨ folder.isTopLevelCustom = true) : Ancestors folders [] folder
  | child {ancestors : List MailSet} {parent child : MailSet} (above : Ancestors folders ancestors parent)
      (mem : child ∈ folders) (isParent : IsParent parent child) :
      Ancestors folders (ancestors ++ [parent]) child

/-- Folders of one level: two roots, or two children of one folder. -/
inductive Siblings (folders : List MailSet) (first second : MailSet) : Prop where
  | top (firstAncestors : Ancestors folders [] first) (secondAncestors : Ancestors folders [] second)
  | sameParent {ancestors : List MailSet} {parent : MailSet} (above : Ancestors folders ancestors parent)
      (firstMember : first ∈ folders) (secondMember : second ∈ folders) (isFirst : IsParent parent first)
      (isSecond : IsParent parent second)

/-- The order of siblings: system folders first, in display order, and the others by name. -/
inductive InOrder (first second : MailSet) : Prop where
  | system (firstVisible : first.isVisibleSystem = true) (secondVisible : second.isVisibleSystem = true)
      (ordered : compareSystem first second)
  | systemFirst (firstVisible : first.isVisibleSystem = true) (secondHidden : second.isVisibleSystem = false)
  | custom (firstHidden : first.isVisibleSystem = false) (secondHidden : second.isVisibleSystem = false)
      (ordered : compareCustom first second)

/-- What a folder tree has to be. -/
structure IsFolderTree (folders : List MailSet) (system : FolderSystem) : Prop where
  /-- Every folder that the links lead to is listed, at the level of its ancestors, … -/
  complete : ∀ ancestors folder, Ancestors folders ancestors folder →
    (ancestors.length, folder) ∈ system.indentedList
  /-- … no other is, … -/
  sound : ∀ level folder, (level, folder) ∈ system.indentedList →
    ∃ ancestors, Ancestors folders ancestors folder ∧ level = ancestors.length
  /-- … and none twice. -/
  once : (system.indentedList.map Prod.snd).Nodup
  afterParent : ∀ ancestors parent child, Ancestors folders ancestors parent → child ∈ folders →
    IsParent parent child → [parent, child].Sublist (system.indentedList.map Prod.snd)
  beforeSibling : ∀ parent child sibling, Siblings folders parent sibling → child ∈ folders →
    IsParent parent child → [parent, sibling].Sublist (system.indentedList.map Prod.snd) →
      [child, sibling].Sublist (system.indentedList.map Prod.snd)
  sorted : ∀ first second, Siblings folders first second →
    [first, second].Sublist (system.indentedList.map Prod.snd) → InOrder first second
  path : ∀ ancestors folder id, Ancestors folders ancestors folder → folder.elementId = some id →
    system.pathToFolder id = ancestors ++ [folder]
  found : ∀ ancestors folder id, Ancestors folders ancestors folder → folder.elementId = some id →
    system.folderById id = some folder

/-! ## Sorted folders -/

instance : Std.Total compareSystem := ⟨fun left right => Nat.le_total (systemOrder left.kind) (systemOrder right.kind)⟩

instance : IsTrans MailSet compareSystem := ⟨fun _ _ _ => Nat.le_trans⟩

instance : Std.Total compareCustom := ⟨fun left right => le_total left.name right.name⟩

instance : IsTrans MailSet compareCustom := ⟨fun left middle right => @le_trans String _ left.name middle.name right.name⟩

theorem sortedChildren_eq (children : Dict String (List MailSet)) (parent : MailSet) :
    sortedChildren children parent =
      ((parent.elementId.bind children.get?).getD []).insertionSort compareCustom := by
  rw [sortedChildren]
  cases parent.elementId.bind children.get? <;> rfl

/-- The folders that name a parent, as they are listed. -/
theorem map_snd_parents_sublist (folders : List MailSet) :
    ((folders.filterMap fun folder => folder.parentFolder.map fun parent => (parent.elementId, folder)).map
      Prod.snd).Sublist folders := by
  induction folders with
  | nil => exact List.Sublist.refl _
  | cons folder rest ih =>
    cases named : folder.parentFolder with
    | none =>
      rw [List.filterMap_cons_none (by rw [named, Option.map_none])]
      exact ih.cons _
    | some ref =>
      rw [List.filterMap_cons_some (by rw [named, Option.map_some])]
      exact ih.cons_cons _

theorem isVisibleSystem_of_isTopLevelCustom (isTop : folder.isTopLevelCustom = true) :
    folder.isVisibleSystem = false := by
  have isCustom := (of_decide_eq_true isTop).1
  rw [MailSet.isVisibleSystem, isCustom]

theorem pairwise_sortedChildren (parent : MailSet) :
    (sortedChildren (childrenByParent folders) parent).Pairwise compareCustom := by
  rw [sortedChildren_eq]
  exact List.pairwise_insertionSort _ _

namespace WellFormed

theorem nodup (wellFormed : WellFormed folders) : folders.Nodup := wellFormed.distinct.of_map _

theorem nodup_sortedChildren (wellFormed : WellFormed folders) (parent : MailSet) :
    (sortedChildren (childrenByParent folders) parent).Nodup := by
  rw [sortedChildren_eq, (List.perm_insertionSort _ _).nodup_iff]
  cases parent.elementId with
  | none => exact List.nodup_nil
  | some id =>
    have group := Dict.get?_groupInto Prod.fst Prod.snd Table.empty (folders.filterMap fun folder : MailSet =>
        folder.parentFolder.map fun ref : IdTuple => (ref.elementId, folder)) id
    rw [Dict.get?_empty, Option.getD_none, List.nil_append] at group
    rw [Option.bind_some, childrenByParent, group]
    exact wellFormed.nodup.sublist ((List.filter_sublist.map _).trans (map_snd_parents_sublist folders))

theorem nodup_roots (wellFormed : WellFormed folders) : (roots folders).Nodup := by
  rw [roots, systemFolders, topLevelCustom, List.nodup_append']
  refine ⟨?_, ?_, fun folder isSystem isTop => ?_⟩
  · rw [(List.perm_insertionSort _ _).nodup_iff]
    exact wellFormed.nodup.filter _
  · rw [(List.perm_insertionSort _ _).nodup_iff]
    exact wellFormed.nodup.filter _
  · rw [List.mem_insertionSort] at isSystem isTop
    have isVisible := (List.mem_filter.mp isSystem).2
    rw [isVisibleSystem_of_isTopLevelCustom (List.mem_filter.mp isTop).2] at isVisible
    cases isVisible

end WellFormed

theorem pairwise_roots : (roots folders).Pairwise InOrder := by
  rw [roots, systemFolders, topLevelCustom, List.pairwise_append]
  refine ⟨?_, ?_, fun first isFirst second isSecond => ?_⟩
  · refine (List.pairwise_insertionSort compareSystem _).imp_of_mem fun isFirst isSecond ordered => ?_
    rw [List.mem_insertionSort] at isFirst isSecond
    exact .system (List.mem_filter.mp isFirst).2 (List.mem_filter.mp isSecond).2 ordered
  · refine (List.pairwise_insertionSort compareCustom _).imp_of_mem fun isFirst isSecond ordered => ?_
    rw [List.mem_insertionSort] at isFirst isSecond
    exact .custom (isVisibleSystem_of_isTopLevelCustom (List.mem_filter.mp isFirst).2)
      (isVisibleSystem_of_isTopLevelCustom (List.mem_filter.mp isSecond).2) ordered
  · rw [List.mem_insertionSort] at isFirst isSecond
    exact .systemFirst (List.mem_filter.mp isFirst).2
      (isVisibleSystem_of_isTopLevelCustom (List.mem_filter.mp isSecond).2)

/-! ## Lineages -/

theorem mem_sortedChildren_iff_isParent {parent child : MailSet} :
    child ∈ sortedChildren (childrenByParent folders) parent ↔ child ∈ folders ∧ IsParent parent child :=
  mem_sortedChildren_iff

/-- The ancestors of a folder are those that the trees are grown along. -/
theorem ancestors_iff_lineage : Ancestors folders ancestors folder ↔
      Lineage (sortedChildren (childrenByParent folders)) (roots folders) ancestors folder := by
  constructor
  · intro isAncestors
    induction isAncestors with
    | root mem isRoot => exact .root (mem_roots_iff.mpr ⟨mem, isRoot⟩)
    | child _ mem isParent ih =>
      exact .child ih (mem_sortedChildren_iff_isParent.mpr ⟨mem, isParent⟩)
  · intro lineage
    induction lineage with
    | root mem =>
      obtain ⟨isListed, isRoot⟩ := mem_roots_iff.mp mem
      exact .root isListed isRoot
    | child _ mem ih =>
      obtain ⟨isListed, isParent⟩ := mem_sortedChildren_iff_isParent.mp mem
      exact .child ih isListed isParent

theorem Ancestors.atDepth
    (isAncestors : Ancestors folders ancestors folder) : AtDepth folders ancestors.length folder :=
  (ancestors_iff_lineage.mp isAncestors).descends

theorem rooted_iff_exists_ancestors :
    Rooted folders folder ↔ ∃ ancestors, Ancestors folders ancestors folder := by
  rw [rooted_iff_descends]
  constructor
  · rintro ⟨depth, descends⟩
    obtain ⟨ancestors, lineage⟩ := descends.exists_lineage
    exact ⟨ancestors, ancestors_iff_lineage.mpr lineage⟩
  · rintro ⟨ancestors, isAncestors⟩
    exact ⟨ancestors.length, isAncestors.atDepth⟩

/-- Siblings are in one brood, in which the others are in order. -/
theorem Siblings.exists_brood {first second : MailSet} (wellFormed : WellFormed folders)
    (siblings : Siblings folders first second) :
    ∃ depth brood, Brood (sortedChildren (childrenByParent folders)) (roots folders) depth brood ∧
      first ∈ brood ∧ second ∈ brood ∧ brood.Pairwise InOrder := by
  cases siblings with
  | top firstAncestors secondAncestors =>
    have isRoot : ∀ folder, Ancestors folders [] folder → folder ∈ roots folders :=
      fun folder isAncestors => (isAncestors.atDepth.mem_roots_iff wellFormed).mpr rfl
    exact ⟨0, roots folders, .roots, isRoot first firstAncestors, isRoot second secondAncestors, pairwise_roots⟩
  | @sameParent ancestors parent above firstMember secondMember isFirst isSecond =>
    refine ⟨_, _, .below above.atDepth, mem_sortedChildren_iff_isParent.mpr ⟨firstMember, isFirst⟩,
      mem_sortedChildren_iff_isParent.mpr ⟨secondMember, isSecond⟩, ?_⟩
    have isHidden : ∀ child ∈ sortedChildren (childrenByParent folders) parent,
        child.isVisibleSystem = false := by
      intro child isChild
      obtain ⟨mem, ref, named, -⟩ := mem_sortedChildren_iff.mp isChild
      refine eq_false_of_ne_true fun isVisible => ?_
      rw [wellFormed.systemTop child mem isVisible] at named
      cases named
    exact (pairwise_sortedChildren parent).imp_of_mem fun isLeft isRight ordered =>
      .custom (isHidden _ isLeft) (isHidden _ isRight) ordered

/-! ## The tree -/

/-- All folders, system then custom, in the order of one forest. -/
theorem map_snd_indentedList_new (folders : List MailSet) : (FolderSystem.new folders).indentedList.map Prod.snd =
      RoseTree.preorder
        ((roots folders).map (RoseTree.grow (sortedChildren (childrenByParent folders)) folders.length)) := by
  rw [indentedList_new, RoseTree.map_snd_flatten]

theorem folderById_new (folders : List MailSet) (elementId : String) :
    (FolderSystem.new folders).folderById elementId =
      (RoseTree.pathTo (fun folder : MailSet => decide (folder.elementId = some elementId)) ((roots folders).map
          (RoseTree.grow (sortedChildren (childrenByParent folders)) folders.length))).bind List.getLast? := by
  rw [← RoseTree.map_value_findTree, roots, List.map_append, RoseTree.findTree_append]
  rfl

namespace WellFormed

/-- The path to a folder is its ancestors and itself. -/
theorem pathTo_eq (wellFormed : WellFormed folders) {id : String}
    (isAncestors : Ancestors folders ancestors folder) (isId : folder.elementId = some id) :
    RoseTree.pathTo (fun folder : MailSet => decide (folder.elementId = some id))
      ((roots folders).map (RoseTree.grow (sortedChildren (childrenByParent folders)) folders.length)) =
        some (ancestors ++ [folder]) := by
  have atDepth := isAncestors.atDepth
  have reaches := atDepth.reaches (wellFormed.depth_lt atDepth).le
  have isFound := @RoseTree.isSome_pathTo _
    (fun folder : MailSet => decide (folder.elementId = some id)) _ _ _ reaches (by simpa using isId)
  obtain ⟨path, isPath⟩ := Option.isSome_iff_exists.mp isFound
  obtain ⟨others, target, rfl, isTarget, lineage⟩ := RoseTree.lineage_of_pathTo (fun value mem => .root mem) isPath
  rw [List.nil_append] at lineage
  have targetMember := (rooted_iff_descends.mpr ⟨_, lineage.descends⟩).mem
  have mem := (rooted_iff_descends.mpr ⟨_, atDepth⟩).mem
  obtain rfl : target = folder :=
    wellFormed.eq_of_elementId targetMember mem ((of_decide_eq_true isTarget).trans isId.symm)
  rw [isPath, Lineage.unique wellFormed.single_parent (fun isRoot _ => wellFormed.root_parentless isRoot) lineage
    (ancestors_iff_lineage.mp isAncestors)]

theorem nodup_indentedList (wellFormed : WellFormed folders) :
    ((FolderSystem.new folders).indentedList.map Prod.snd).Nodup := by
  rw [map_snd_indentedList_new]
  exact RoseTree.nodup_preorder_grow wellFormed.single_parent (fun isRoot _ => wellFormed.root_parentless isRoot)
    wellFormed.nodup_sortedChildren wellFormed.nodup_roots fun _ isRoot => .root isRoot

theorem isFolderTree_new (wellFormed : WellFormed folders) : IsFolderTree folders (FolderSystem.new folders) where
  complete ancestors folder isAncestors := by
    have atDepth := isAncestors.atDepth
    rw [indentedList_new, RoseTree.mem_flatten_iff]
    exact ⟨_, _, atDepth.reaches (wellFormed.depth_lt atDepth).le, RoseTree.value_grow _ _ _, (Nat.zero_add _).symm⟩
  sound level folder mem := by
    rw [indentedList_new, RoseTree.mem_flatten_iff] at mem
    obtain ⟨depth, target, reaches, rfl, rfl⟩ := mem
    have descends := Descends.of_reaches reaches
    obtain ⟨ancestors, lineage⟩ := descends.exists_lineage
    refine ⟨ancestors, ancestors_iff_lineage.mpr lineage, ?_⟩
    rw [Nat.zero_add]
    exact wellFormed.depth_unique descends lineage.descends
  once := wellFormed.nodup_indentedList
  afterParent ancestors parent child isAncestors mem isParent := by
    have atDepth := isAncestors.atDepth
    rw [map_snd_indentedList_new]
    exact atDepth.parent_sublist (wellFormed.depth_lt atDepth) (mem_sortedChildren_iff_isParent.mpr ⟨mem, isParent⟩)
  beforeSibling parent child sibling siblings mem isParent inOrder := by
    have distinct := wellFormed.nodup_indentedList
    rw [map_snd_indentedList_new] at inOrder distinct ⊢
    obtain ⟨depth, brood, isBrood, isFirst, isSecond, -⟩ := siblings.exists_brood wellFormed
    have bounded := wellFormed.depth_lt (isBrood.descends isFirst)
    have inBrood := isBrood.of_pair_sublist bounded.le distinct isFirst isSecond inOrder
    exact isBrood.child_sublist bounded inBrood (mem_sortedChildren_iff_isParent.mpr ⟨mem, isParent⟩)
  sorted first second siblings inOrder := by
    have distinct := wellFormed.nodup_indentedList
    rw [map_snd_indentedList_new] at inOrder distinct
    obtain ⟨depth, brood, isBrood, isFirst, isSecond, ordered⟩ := siblings.exists_brood wellFormed
    have bounded := wellFormed.depth_lt (isBrood.descends isFirst)
    have inBrood := isBrood.of_pair_sublist bounded.le distinct isFirst isSecond inOrder
    exact List.pairwise_iff_forall_sublist.mp ordered inBrood
  path ancestors folder id isAncestors isId := by
    rw [pathToFolder_new, wellFormed.pathTo_eq isAncestors isId, Option.getD_some]
  found ancestors folder id isAncestors isId := by
    rw [folderById_new, wellFormed.pathTo_eq isAncestors isId, Option.bind_some, List.getLast?_concat]

/-! ## The recursion ends -/

/-- `make_subtree` calls itself for the children of a folder, and no chain of these calls goes on. -/
theorem acc_of_atDepth (wellFormed : WellFormed folders) {depth : Nat}
    (atDepth : AtDepth folders depth folder) :
    Acc (fun child parent => child ∈ sortedChildren (childrenByParent folders) parent) folder := by
  induction isLeft : folders.length - depth generalizing depth folder with
  | zero =>
    have bounded := wellFormed.depth_lt atDepth
    omega
  | succ left ih =>
    refine Acc.intro folder fun child isChild => ih (.child atDepth isChild) ?_
    omega

/-- The bound on the depth cuts no tree short: the trees are those of the recursion without it. -/
theorem makeSubtree_eq (wellFormed : WellFormed folders) {depth : Nat}
    (atDepth : AtDepth folders depth folder) : makeSubtree (childrenByParent folders) folders.length folder =
      .node folder ((sortedChildren (childrenByParent folders) folder).map
        (makeSubtree (childrenByParent folders) folders.length)) := by
  have bounded := wellFormed.depth_lt atDepth
  obtain ⟨bound, isBound⟩ : ∃ bound, folders.length = bound + 1 := ⟨folders.length - 1, by omega⟩
  rw [isBound, makeSubtree, RoseTree.grow]
  refine congrArg _ (List.map_congr_left fun child isChild => ?_)
  rw [makeSubtree]
  refine (RoseTree.grow_add (fun further target descends => ?_) 1).symm
  have targetDepth : AtDepth folders (depth + 1 + further) target := (Descends.child atDepth isChild).trans descends
  have bounded := wellFormed.depth_lt targetDepth
  omega

/-- The folder tree is complete and consistent, and the recursion that builds it ends. -/
theorem folderSystem_new (wellFormed : WellFormed folders) :
    IsFolderTree folders (FolderSystem.new folders) ∧ ∀ folder, Rooted folders folder →
      Acc (fun child parent => child ∈ sortedChildren (childrenByParent folders) parent) folder ∧
        makeSubtree (childrenByParent folders) folders.length folder =
          .node folder ((sortedChildren (childrenByParent folders) folder).map
            (makeSubtree (childrenByParent folders) folders.length)) := by
  refine ⟨wellFormed.isFolderTree_new, fun folder rooted => ?_⟩
  obtain ⟨ancestors, isAncestors⟩ := rooted_iff_exists_ancestors.mp rooted
  exact ⟨wellFormed.acc_of_atDepth isAncestors.atDepth, wellFormed.makeSubtree_eq isAncestors.atDepth⟩

end WellFormed

/-! ## A mailbox with a folder in a folder -/

def sampleOuter : MailSet := ⟨some ⟨"l", "b"⟩, 0, "m", none, "e"⟩

def sampleInner : MailSet := ⟨some ⟨"l", "c"⟩, 0, "n", some ⟨"l", "b"⟩, "e"⟩

/-- The inner folder is listed before the outer one, and the inbox last. -/
def sampleFolders : List MailSet := [sampleInner, sampleOuter, ⟨some ⟨"l", "a"⟩, 1, "", none, "e"⟩]

theorem wellFormed_sampleFolders : WellFormed sampleFolders where
  identified := by decide
  distinct := by decide
  systemTop := by decide

theorem ancestors_sampleInner : Ancestors sampleFolders [sampleOuter] sampleInner :=
  .child (.root (by decide) (by decide)) (by decide) ⟨_, rfl, rfl⟩

/-- The path to the inner folder goes through the outer one. -/
theorem pathToFolder_sampleFolders :
    (FolderSystem.new sampleFolders).pathToFolder "c" = [sampleOuter, sampleInner] :=
  (WellFormed.folderSystem_new wellFormed_sampleFolders).1.path _ _ "c" ancestors_sampleInner rfl

end TutaBridge.Tuta
