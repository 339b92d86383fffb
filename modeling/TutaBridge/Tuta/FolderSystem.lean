import TutaBridge.Std.Forest
import TutaBridge.Std.Table
import TutaBridge.Tuta.Entities
import Mathlib.Data.List.Sort
import Mathlib.Data.String.Basic

/-!
# The folder tree of a mailbox

`FolderSystem` rebuilds the folder trees from the flat list of mail sets: the
visible system folders and the custom folders without a parent are its roots, and a
mail set that names a parent is below it. A mail set that no root leads to is in
neither tree.
-/

namespace TutaBridge.Tuta

open TutaBridge.Std

variable {folder : MailSet} {folders : List MailSet}

/-- A `MailSet`, as far as the folder tree and the folder list read it. -/
structure MailSet where
  id : Option IdTuple
  folderType : Int
  name : String
  parentFolder : Option IdTuple
  entries : String
deriving DecidableEq, Repr

namespace MailSet

/-- The folder type, `unknown` for values this code does not know. -/
def kind (mailSet : MailSet) : MailSetKind :=
  match mailSet.folderType with
  | 0 => .custom
  | 1 => .inbox
  | 2 => .sent
  | 3 => .trash
  | 4 => .archive
  | 5 => .spam
  | 6 => .draft
  | 7 => .all
  | 8 => .label
  | 9 => .imported
  | 10 => .scheduled
  | _ => .unknown

def elementId (mailSet : MailSet) : Option String := mailSet.id.map IdTuple.elementId

/-- System folders that are shown to the user as real folders. -/
def isVisibleSystem (mailSet : MailSet) : Bool :=
  match mailSet.kind with
  | .inbox | .sent | .trash | .archive | .spam | .draft | .scheduled => true
  | _ => false

/-- A custom folder at the top of the tree. -/
def isTopLevelCustom (mailSet : MailSet) : Bool :=
  mailSet.kind = .custom ∧ mailSet.parentFolder = none

end MailSet

/-- Display order for visible system folders. -/
def systemOrder : MailSetKind → Nat
  | .inbox => 0
  | .draft => 1
  | .scheduled => 2
  | .sent => 3
  | .trash => 4
  | .archive => 5
  | .spam => 6
  | _ => 7

/-- `compare_system`, as the order `sort_by` makes of it. -/
def compareSystem (left right : MailSet) : Prop := systemOrder left.kind ≤ systemOrder right.kind

/-- `compare_custom`, as the order `sort_by` makes of it. -/
def compareCustom (left right : MailSet) : Prop := left.name ≤ right.name

instance : DecidableRel compareSystem := fun left right =>
  inferInstanceAs (Decidable (systemOrder left.kind ≤ systemOrder right.kind))

instance : DecidableRel compareCustom := fun left right =>
  inferInstanceAs (Decidable (left.name ≤ right.name))

/-- The folders that name a parent, grouped by the parent's element id. -/
def childrenByParent (folders : List MailSet) : Dict String (List MailSet) :=
  Dict.groupInto Prod.fst Prod.snd .empty
    (folders.filterMap fun folder => folder.parentFolder.map fun parent => (parent.elementId, folder))

/-- The children of a folder, by name. -/
def sortedChildren (children : Dict String (List MailSet)) (parent : MailSet) : List MailSet :=
  match parent.elementId.bind children.get? with
  | none => []
  | some kids => kids.insertionSort compareCustom

/-- `make_subtree`, to the given depth. -/
def makeSubtree (children : Dict String (List MailSet)) (depth : Nat) (parent : MailSet) : RoseTree MailSet :=
  RoseTree.grow (sortedChildren children) depth parent

/-- The visible system folders, in display order. -/
def systemFolders (folders : List MailSet) : List MailSet :=
  (folders.filter MailSet.isVisibleSystem).insertionSort compareSystem

/-- The custom folders without a parent, by name. -/
def topLevelCustom (folders : List MailSet) : List MailSet :=
  (folders.filter MailSet.isTopLevelCustom).insertionSort compareCustom

structure FolderSystem where
  systemSubtrees : List (RoseTree MailSet)
  customSubtrees : List (RoseTree MailSet)
  importedMailSet : Option MailSet

namespace FolderSystem

/-- A tree is less deep than there are folders, so their number bounds the recursion
of `make_subtree`. -/
def new (folders : List MailSet) : FolderSystem where
  systemSubtrees :=
    (systemFolders folders).map (makeSubtree (childrenByParent folders) folders.length)
  customSubtrees :=
    (topLevelCustom folders).map (makeSubtree (childrenByParent folders) folders.length)
  importedMailSet := folders.find? fun folder => folder.kind = .imported

/-- All folders, system then custom, with their indentation level. -/
def indentedList (system : FolderSystem) : List (Nat × MailSet) :=
  RoseTree.flatten 0 system.systemSubtrees ++ RoseTree.flatten 0 system.customSubtrees

/-- `folder_by_id`: the folder of the first subtree with this element id, in both trees. -/
def folderById (system : FolderSystem) (elementId : String) : Option MailSet :=
  let isFolder := fun folder : MailSet => decide (folder.elementId = some elementId)
  ((RoseTree.findTree isFolder system.systemSubtrees).or
    (RoseTree.findTree isFolder system.customSubtrees)).map RoseTree.value

/-- All ancestors of the folder, including the folder itself. -/
def pathToFolder (system : FolderSystem) (folderId : String) : List MailSet :=
  let isFolder := fun folder : MailSet => decide (folder.elementId = some folderId)
  ((RoseTree.pathTo isFolder system.systemSubtrees).or
    (RoseTree.pathTo isFolder system.customSubtrees)).getD []

end FolderSystem

/-! ## What the trees hold -/

/-- Mail sets as a mailbox has them: each with an id of its own, and no system folder
below another. -/
structure WellFormed (folders : List MailSet) : Prop where
  identified : ∀ folder ∈ folders, folder.id.isSome
  distinct : (folders.map MailSet.elementId).Nodup
  systemTop : ∀ folder ∈ folders, folder.isVisibleSystem → folder.parentFolder = none

/-- The folder is a visible system folder or a top-level custom folder, or is below
such a one through parents that are all among `folders`. -/
inductive Rooted (folders : List MailSet) : MailSet → Prop where
  | system {folder : MailSet} (mem : folder ∈ folders) (isVisible : folder.isVisibleSystem) :
      Rooted folders folder
  | topLevel {folder : MailSet} (mem : folder ∈ folders) (isTop : folder.isTopLevelCustom) :
      Rooted folders folder
  | child {folder parent : MailSet} {ref : IdTuple} (above : Rooted folders parent)
      (mem : folder ∈ folders) (named : folder.parentFolder = some ref)
      (isParent : parent.elementId = some ref.elementId) : Rooted folders folder

theorem WellFormed.take (wellFormed : WellFormed folders) (count : Nat) :
    WellFormed (folders.take count) where
  identified folder mem := wellFormed.identified folder (List.mem_of_mem_take mem)
  distinct := wellFormed.distinct.sublist ((List.take_sublist count folders).map _)
  systemTop folder mem := wellFormed.systemTop folder (List.mem_of_mem_take mem)

theorem WellFormed.eq_of_elementId (wellFormed : WellFormed folders)
    {first second : MailSet} (firstMember : first ∈ folders) (secondMember : second ∈ folders)
    (same : first.elementId = second.elementId) : first = second :=
  List.inj_on_of_nodup_map wellFormed.distinct firstMember secondMember same

theorem WellFormed.exists_elementId (wellFormed : WellFormed folders) (mem : folder ∈ folders) :
    ∃ id, folder.elementId = some id := by
  obtain ⟨ref, isRef⟩ := Option.isSome_iff_exists.mp (wellFormed.identified folder mem)
  exact ⟨ref.elementId, by rw [MailSet.elementId, isRef, Option.map_some]⟩

theorem Rooted.mem (rooted : Rooted folders folder) : folder ∈ folders := by
  cases rooted <;> assumption

section Trees

variable {folders : List MailSet}

theorem mem_sortedChildren_iff {parent child : MailSet} : child ∈ sortedChildren (childrenByParent folders) parent ↔
      child ∈ folders ∧ ∃ ref, child.parentFolder = some ref ∧ parent.elementId = some ref.elementId := by
  cases isId : parent.elementId with
  | none => simp [sortedChildren, isId]
  | some id =>
    have group := Dict.get?_groupInto Prod.fst Prod.snd Table.empty (folders.filterMap fun folder : MailSet =>
        folder.parentFolder.map fun ref : IdTuple => (ref.elementId, folder)) id
    have kids : child ∈ sortedChildren (childrenByParent folders) parent ↔
        child ∈ ((childrenByParent folders).get? id).getD [] := by
      rw [sortedChildren, isId, Option.bind_some]
      cases (childrenByParent folders).get? id with
      | none => simp
      | some kids => simp
    rw [kids, childrenByParent, group]
    simp only [Dict.get?_empty, Option.getD_none, List.nil_append, List.mem_map, List.mem_filter,
      List.mem_filterMap, Option.map_eq_some_iff, decide_eq_true_eq, Option.some.injEq]
    constructor
    · rintro ⟨_, ⟨⟨folder, mem, ref, named, rfl⟩, rfl⟩, rfl⟩
      exact ⟨mem, ref, named, rfl⟩
    · rintro ⟨mem, ref, named, rfl⟩
      exact ⟨_, ⟨⟨child, mem, ref, named, rfl⟩, rfl⟩, rfl⟩

/-- The roots of both trees. -/
def roots (folders : List MailSet) : List MailSet := systemFolders folders ++ topLevelCustom folders

theorem mem_roots_iff : folder ∈ roots folders ↔
      folder ∈ folders ∧ (folder.isVisibleSystem ∨ folder.isTopLevelCustom) := by
  simp [roots, systemFolders, topLevelCustom, and_or_left]

theorem rooted_iff_descends : Rooted folders folder ↔
      ∃ depth, Descends (sortedChildren (childrenByParent folders)) (roots folders) depth folder := by
  constructor
  · intro rooted
    induction rooted with
    | system mem isVisible => exact ⟨0, .root (mem_roots_iff.mpr ⟨mem, .inl isVisible⟩)⟩
    | topLevel mem isTop => exact ⟨0, .root (mem_roots_iff.mpr ⟨mem, .inr isTop⟩)⟩
    | child _ mem named isParent ih =>
      obtain ⟨depth, above⟩ := ih
      exact ⟨depth + 1, .child above (mem_sortedChildren_iff.mpr ⟨mem, _, named, isParent⟩)⟩
  · rintro ⟨depth, descends⟩
    induction descends with
    | root isRoot =>
      obtain ⟨mem, isVisible | isTop⟩ := mem_roots_iff.mp isRoot
      · exact .system mem isVisible
      · exact .topLevel mem isTop
    | child _ isChild ih =>
      obtain ⟨mem, ref, named, isParent⟩ := mem_sortedChildren_iff.mp isChild
      exact .child ih mem named isParent

/-- The forest of both trees. -/
theorem indentedList_new : (FolderSystem.new folders).indentedList = RoseTree.flatten 0 ((roots folders).map
        (RoseTree.grow (sortedChildren (childrenByParent folders)) folders.length)) := by
  rw [roots, List.map_append, RoseTree.flatten_append]
  rfl

theorem pathToFolder_new (folderId : String) : (FolderSystem.new folders).pathToFolder folderId =
    (RoseTree.pathTo (fun folder : MailSet => decide (folder.elementId = some folderId)) ((roots folders).map
        (RoseTree.grow (sortedChildren (childrenByParent folders)) folders.length))).getD [] := by
  rw [roots, List.map_append, RoseTree.pathTo_append]
  rfl

/-- A folder is at a depth below the roots of both trees. -/
def AtDepth (folders : List MailSet) : Nat → MailSet → Prop :=
  Descends (sortedChildren (childrenByParent folders)) (roots folders)

namespace WellFormed

/-- A folder names one parent. -/
theorem single_parent (wellFormed : WellFormed folders) {depth other : Nat}
    {first second child : MailSet} (firstDepth : AtDepth folders depth first)
    (secondDepth : AtDepth folders other second) (isFirst : child ∈ sortedChildren (childrenByParent folders) first)
    (isSecond : child ∈ sortedChildren (childrenByParent folders) second) : first = second := by
  obtain ⟨_, ref, named, firstId⟩ := mem_sortedChildren_iff.mp isFirst
  obtain ⟨_, other, alsoNamed, secondId⟩ := mem_sortedChildren_iff.mp isSecond
  obtain rfl : ref = other := Option.some.inj (named.symm.trans alsoNamed)
  exact wellFormed.eq_of_elementId (rooted_iff_descends.mpr ⟨_, firstDepth⟩).mem
    (rooted_iff_descends.mpr ⟨_, secondDepth⟩).mem (firstId.trans secondId.symm)

/-- A root names no parent. -/
theorem root_parentless (wellFormed : WellFormed folders) {root folder : MailSet} (isRoot : root ∈ roots folders) :
    root ∉ sortedChildren (childrenByParent folders) folder := by
  intro isChild
  obtain ⟨mem, ref, named, _⟩ := mem_sortedChildren_iff.mp isChild
  have parentless : root.parentFolder = none := by
    obtain ⟨_, isVisible | isTop⟩ := mem_roots_iff.mp isRoot
    · exact wellFormed.systemTop root mem isVisible
    · exact (of_decide_eq_true isTop).2
  rw [parentless] at named
  cases named

theorem depth_unique (wellFormed : WellFormed folders) {depth other : Nat}
    (atDepth : AtDepth folders depth folder) (atOther : AtDepth folders other folder) : depth = other :=
  Descends.depth_unique wellFormed.single_parent (fun isRoot _ => wellFormed.root_parentless isRoot)
    atDepth atOther

theorem depth_lt (wellFormed : WellFormed folders) {depth : Nat}
    (atDepth : AtDepth folders depth folder) : depth < folders.length :=
  Descends.depth_lt wellFormed.single_parent (fun isRoot _ => wellFormed.root_parentless isRoot)
    (fun _ _ below => (rooted_iff_descends.mpr ⟨_, below⟩).mem) atDepth

end WellFormed

theorem AtDepth.mem_roots_iff {depth : Nat} (wellFormed : WellFormed folders)
    (atDepth : AtDepth folders depth folder) : folder ∈ roots folders ↔ depth = 0 := by
  constructor
  · intro isRoot
    exact wellFormed.depth_unique atDepth (.root isRoot)
  · rintro rfl
    cases atDepth with
    | root isRoot => exact isRoot

/-- The trees hold the rooted folders. -/
theorem mem_indentedList_iff (wellFormed : WellFormed folders) :
    (∃ level, (level, folder) ∈ (FolderSystem.new folders).indentedList) ↔ Rooted folders folder := by
  simp only [indentedList_new, RoseTree.mem_flatten_iff]
  constructor
  · rintro ⟨_, depth, target, reaches, rfl, _⟩
    exact rooted_iff_descends.mpr ⟨depth, .of_reaches reaches⟩
  · intro rooted
    obtain ⟨depth, descends⟩ := rooted_iff_descends.mp rooted
    exact ⟨0 + depth, depth, _, descends.reaches (wellFormed.depth_lt descends).le,
      RoseTree.value_grow _ _ _, rfl⟩

/-- The path to a rooted folder ends in it, and is that folder alone only at a root. -/
theorem pathToFolder_of_rooted (wellFormed : WellFormed folders) {id : String}
    (rooted : Rooted folders folder) (isId : folder.elementId = some id) :
    ∃ above, (FolderSystem.new folders).pathToFolder id = above ++ [folder] ∧
      (above = [] ↔ folder ∈ roots folders) := by
  obtain ⟨depth, atDepth⟩ := rooted_iff_descends.mp rooted
  have reaches := atDepth.reaches (wellFormed.depth_lt atDepth).le
  have isFound := @RoseTree.isSome_pathTo _
    (fun folder : MailSet => decide (folder.elementId = some id)) _ _ _ reaches (by simpa using isId)
  obtain ⟨path, isPath⟩ := Option.isSome_iff_exists.mp isFound
  obtain ⟨other, target, found, targetId, length, last⟩ := RoseTree.pathTo_eq_some_imp isPath
  have targetDepth : AtDepth folders other target.value := .of_reaches found
  have isFolder : target.value = folder :=
    wellFormed.eq_of_elementId (rooted_iff_descends.mpr ⟨_, targetDepth⟩).mem rooted.mem
      ((of_decide_eq_true targetId).trans isId.symm)
  rw [isFolder] at targetDepth last
  obtain ⟨above, rfl⟩ := List.getLast?_eq_some_iff.mp last
  refine ⟨above, by rw [pathToFolder_new, isPath, Option.getD_some], ?_⟩
  rw [targetDepth.mem_roots_iff wellFormed, ← List.length_eq_zero_iff]
  rw [List.length_append, List.length_singleton] at length
  omega

end Trees

end TutaBridge.Tuta
