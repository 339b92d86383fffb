import Mathlib.Data.List.Sort
import Mathlib.Data.List.Destutter

/-!
# Sorted lists

What `sort` and `dedup` leave of a list, and what decides the outcome of a stable
sort by a key: the order of the elements that share one.
-/

namespace TutaBridge.Std

variable {places : List Nat}

section Dedup

variable {α : Type} [DecidableEq α]

theorem mem_destutter' {a b : α} {list : List α} : a ∈ list.destutter' (· ≠ ·) b ↔ a = b ∨ a ∈ list := by
  induction list generalizing b with
  | nil => simp
  | cons head rest ih =>
    by_cases same : b = head
    · rw [List.destutter'_cons_neg _ (not_not.mpr same), ih, List.mem_cons, same]
      tauto
    · rw [List.destutter'_cons_pos _ same, List.mem_cons, ih, List.mem_cons]

/-- Dropping repetitions drops no element. -/
theorem mem_destutter {a : α} {list : List α} : a ∈ list.destutter (· ≠ ·) ↔ a ∈ list := by
  cases list with
  | nil => simp
  | cons head rest => rw [List.destutter_cons', mem_destutter', List.mem_cons]

end Dedup

section SortDedup

variable {α : Type} [LinearOrder α]

theorem mem_sortDedup {a : α} {list : List α} : a ∈ (list.insertionSort (· ≤ ·)).destutter (· ≠ ·) ↔ a ∈ list := by
  rw [mem_destutter, List.mem_insertionSort]

/-- A sorted list without repetitions ascends strictly. -/
theorem sortDedup_ascending (list : List α) : ((list.insertionSort (· ≤ ·)).destutter (· ≠ ·)).Pairwise (· < ·) := by
  have ascending : ((list.insertionSort (· ≤ ·)).destutter (· ≠ ·)).Pairwise (· ≤ ·) :=
    (List.pairwise_insertionSort (· ≤ ·) list).sublist (List.destutter_sublist _ _)
  have distinct : ((list.insertionSort (· ≤ ·)).destutter (· ≠ ·)).IsChain (· ≠ ·) :=
    List.isChain_destutter _ _
  rw [← List.isChain_iff_pairwise, List.isChain_iff_getElem] at ascending ⊢
  rw [List.isChain_iff_getElem] at distinct
  exact fun index inside => lt_of_le_of_ne (ascending index inside) (distinct index inside)

end SortDedup

section Places

variable {β : Type}

/-- The elements of a list that stand at the places, in the order of the list. -/
def elementsAt (list : List β) (places : List Nat) : List β :=
  (list.zipIdx.filter fun item => item.2 ∈ places).map Prod.fst

/-- The elements that stand at no such place. -/
def elementsBeside (list : List β) (places : List Nat) : List β :=
  (list.zipIdx.filter fun item => item.2 ∉ places).map Prod.fst

theorem mem_elementsAt {list : List β} {element : β} :
    element ∈ elementsAt list places ↔ ∃ place ∈ places, list[place]? = some element := by
  rw [elementsAt, List.mem_map]
  constructor
  · rintro ⟨⟨found, place⟩, mem, rfl⟩
    obtain ⟨inList, chosen⟩ := List.mem_filter.mp mem
    exact ⟨place, of_decide_eq_true chosen, List.mem_zipIdx_iff_getElem?.mp inList⟩
  · rintro ⟨place, chosen, found⟩
    exact ⟨(element, place), List.mem_filter.mpr
      ⟨List.mem_zipIdx_iff_getElem?.mpr found, decide_eq_true chosen⟩, rfl⟩

/-- Looking up ascending places of a list gives its elements there, in the order of the
list. -/
theorem filterMap_getElem?_ascending (list : List β)
    (ascending : places.Pairwise (· < ·)) (inside : ∀ place ∈ places, place < list.length) :
    places.filterMap (fun place => list[place]?) = elementsAt list places := by
  have indices : (list.zipIdx.filter fun item => item.2 ∈ places).map Prod.snd = places := by
    have sub : ((list.zipIdx.filter fun item => item.2 ∈ places).map Prod.snd).Sublist
        (List.range' 0 list.length) := by
      rw [← List.zipIdx_map_snd 0 list]
      exact List.filter_sublist.map _
    have range : (List.range' 0 list.length).Pairwise (· < ·) := List.pairwise_lt_range'
    refine (range.sublist sub).eq_of_mem_iff ascending fun place => ?_
    rw [List.mem_map]
    constructor
    · rintro ⟨item, mem, rfl⟩
      exact of_decide_eq_true (List.mem_filter.mp mem).2
    · intro chosen
      have found := List.getElem?_eq_getElem (inside place chosen)
      exact ⟨(list.get ⟨place, inside place chosen⟩, place), List.mem_filter.mpr
        ⟨List.mem_zipIdx_iff_getElem?.mpr found, decide_eq_true chosen⟩, rfl⟩
  have looked : ∀ item ∈ list.zipIdx.filter fun item => item.2 ∈ places,
      list[item.2]? = some item.1 := fun item mem =>
    List.mem_zipIdx_iff_getElem?.mp (List.mem_filter.mp mem).1
  calc places.filterMap (fun place => list[place]?)
      = ((list.zipIdx.filter fun item => item.2 ∈ places).map Prod.snd).filterMap
          (fun place => list[place]?) := by rw [indices]
    _ = (list.zipIdx.filter fun item => item.2 ∈ places).filterMap (fun item => some item.1) := by
        rw [List.filterMap_map]
        exact List.filterMap_congr looked
    _ = elementsAt list places := by
        rw [elementsAt, ← List.filterMap_eq_map]
        rfl

/-- A property that tells the places apart from the others selects what stands beside them. -/
theorem filter_eq_elementsBeside {list : List β} {chosen : β → Bool}
    (tells : ∀ place element, list[place]? = some element → (chosen element ↔ place ∈ places)) :
    (list.filter fun element => !chosen element) = elementsBeside list places := by
  rw [elementsBeside]
  conv_lhs => rw [← List.zipIdx_map_fst 0 list, List.filter_map]
  refine congrArg (List.map Prod.fst) (List.filter_congr fun item mem => ?_)
  have told := tells item.2 item.1 (List.mem_zipIdx_iff_getElem?.mp mem)
  simp [← told]

/-- The list with the elements at the places changed. -/
def changeAt (change : β → β) (list : List β) (places : List Nat) : List β :=
  list.mapIdx fun place element => if place ∈ places then change element else element

theorem getElem?_changeAt (change : β → β) (list : List β) (places : List Nat) (place : Nat) :
    (changeAt change list places)[place]? =
      list[place]?.map fun element => if place ∈ places then change element else element := by
  rw [changeAt, List.getElem?_mapIdx]

/-- Changing one place after another. -/
theorem foldl_modify (change : β → β) (list : List β) (distinct : places.Nodup) :
    places.foldl (fun list place => list.modify place change) list = changeAt change list places := by
  induction places generalizing list with
  | nil =>
    refine List.ext_getElem? fun place => ?_
    rw [getElem?_changeAt]
    simp
  | cons first rest ih =>
    rw [List.nodup_cons] at distinct
    rw [List.foldl_cons, ih _ distinct.2]
    refine List.ext_getElem? fun place => ?_
    rw [getElem?_changeAt, getElem?_changeAt, List.getElem?_modify]
    by_cases here : first = place
    · subst here
      cases list[first]? with
      | none => rfl
      | some element => simp [distinct.1]
    · simp [here, Ne.symm here]

theorem changeAt_changeAt (change again : β → β) (list : List β) (places : List Nat) :
    changeAt again (changeAt change list places) places = changeAt (again ∘ change) list places := by
  refine List.ext_getElem? fun place => ?_
  rw [getElem?_changeAt, getElem?_changeAt, getElem?_changeAt]
  cases list[place]? with
  | none => rfl
  | some element => by_cases chosen : place ∈ places <;> simp [chosen]

theorem mem_elementsAt_changeAt {change : β → β} {list : List β} {element : β} :
    element ∈ elementsAt (changeAt change list places) places ↔
      ∃ old ∈ elementsAt list places, change old = element := by
  constructor
  · intro mem
    obtain ⟨place, chosen, found⟩ := mem_elementsAt.mp mem
    rw [getElem?_changeAt, Option.map_eq_some_iff] at found
    obtain ⟨old, there, rfl⟩ := found
    exact ⟨old, mem_elementsAt.mpr ⟨place, chosen, there⟩, (if_pos chosen).symm⟩
  · rintro ⟨old, mem, rfl⟩
    obtain ⟨place, chosen, there⟩ := mem_elementsAt.mp mem
    refine mem_elementsAt.mpr ⟨place, chosen, ?_⟩
    rw [getElem?_changeAt, there, Option.map_some, if_pos chosen]

/-- Two changes have the same outcome when they agree on the elements at the places. -/
theorem changeAt_eq_iff {change other : β → β} {list : List β} :
    changeAt change list places = changeAt other list places ↔
      ∀ element ∈ elementsAt list places, change element = other element := by
  constructor
  · intro same element mem
    obtain ⟨place, chosen, there⟩ := mem_elementsAt.mp mem
    have atPlace := congrArg (·[place]?) same
    simpa [getElem?_changeAt, there, chosen] using atPlace
  · intro agree
    refine List.ext_getElem? fun place => ?_
    rw [getElem?_changeAt, getElem?_changeAt]
    cases there : list[place]? with
    | none => rfl
    | some element =>
      by_cases chosen : place ∈ places
      · simp [chosen, agree element (mem_elementsAt.mpr ⟨place, chosen, there⟩)]
      · simp [chosen]

end Places

section StableSort

variable {α : Type} (key : α → Nat)

/-- Inserting an element puts it before those that share its key. -/
theorem filter_orderedInsert (a : α) (list : List α) (value : Nat) :
    (list.orderedInsert (fun left right => key left ≤ key right) a).filter (key · = value) =
      (a :: list).filter (key · = value) := by
  induction list with
  | nil => rfl
  | cons head rest ih =>
    rw [List.orderedInsert]
    split
    next => rfl
    next greater =>
      rw [List.filter_cons, ih]
      simp only [List.filter_cons, decide_eq_true_eq]
      split <;> split <;> first | rfl | omega

/-- A stable sort leaves the elements of one key in their order. -/
theorem filter_insertionSort (list : List α) (value : Nat) :
    (list.insertionSort fun left right => key left ≤ key right).filter (key · = value) =
      list.filter (key · = value) := by
  induction list with
  | nil => rfl
  | cons head rest ih =>
    rw [List.insertionSort_cons, filter_orderedInsert, List.filter_cons, ih, List.filter_cons]

/-- Sorted lists with the same elements of each key are the same. -/
theorem eq_of_filter_key {first second : List α} (firstSorted : first.Pairwise fun left right => key left ≤ key right)
    (secondSorted : second.Pairwise fun left right => key left ≤ key right)
    (same : ∀ value, first.filter (key · = value) = second.filter (key · = value)) : first = second := by
  induction first generalizing second with
  | nil =>
    cases second with
    | nil => rfl
    | cons b second => simpa using same (key b)
  | cons a first ih =>
    cases second with
    | nil => simpa using same (key a)
    | cons b second =>
      -- each head shares its key with an element of the other list
      have bKnown : b ∈ (a :: first).filter (key · = key b) := by simp [same]
      have aKnown : a ∈ (b :: second).filter (key · = key a) := by simp [← same]
      have low : key a ≤ key b := by
        rcases List.mem_cons.mp (List.mem_filter.mp bKnown).1 with rfl | later
        · exact le_rfl
        · exact List.rel_of_pairwise_cons firstSorted later
      have high : key b ≤ key a := by
        rcases List.mem_cons.mp (List.mem_filter.mp aKnown).1 with rfl | later
        · exact le_rfl
        · exact List.rel_of_pairwise_cons secondSorted later
      have heads := same (key a)
      simp only [List.filter_cons, le_antisymm high low, decide_true, if_true, List.cons.injEq] at heads
      obtain ⟨rfl, -⟩ := heads
      rw [ih firstSorted.of_cons secondSorted.of_cons]
      intro value
      have whole := same value
      simp only [List.filter_cons] at whole
      split at whole
      · exact (List.cons.inj whole).2
      · exact whole

/-- A sorted list with the elements of each key in the order they have in another
is what a stable sort makes of the other. -/
theorem insertionSort_eq_of_filter_key {list sorted : List α}
    (isSorted : sorted.Pairwise fun left right => key left ≤ key right)
    (same : ∀ value, sorted.filter (key · = value) = list.filter (key · = value)) :
    (list.insertionSort fun left right => key left ≤ key right) = sorted := by
  have total : Std.Total fun left right : α => key left ≤ key right :=
    ⟨fun left right => Nat.le_total (key left) (key right)⟩
  have transitive : IsTrans α fun left right : α => key left ≤ key right :=
    ⟨fun _ _ _ => Nat.le_trans⟩
  refine eq_of_filter_key key (List.pairwise_insertionSort _ list) isSorted fun value => ?_
  rw [filter_insertionSort, same]

/-- The pairs of a key hold the values of that key. -/
theorem filter_map_pair {β : Type} (content : α → β) (list : List α) (value : Nat) :
    (list.map fun a => (key a, content a)).filter (·.1 = value) =
      ((list.filter (key · = value)).map content).map (Prod.mk value) := by
  rw [List.filter_map, List.map_map]
  refine List.map_congr_left fun a mem => ?_
  have same : key a = value := of_decide_eq_true (List.mem_filter.mp mem).2
  rw [same, Function.comp_apply]

end StableSort

section Sublists

variable {α : Type} [DecidableEq α]

/-- A sublist of a list without repetitions is what the list holds of it. -/
theorem eq_filter_of_sublist {part whole : List α} (sublist : part.Sublist whole)
    (distinct : whole.Nodup) : part = whole.filter (· ∈ part) := by
  induction sublist with
  | slnil => rfl
  | cons a sublist ih =>
    obtain ⟨absent, later⟩ := List.nodup_cons.mp distinct
    rw [List.filter_cons, if_neg (by simpa using mt (sublist.subset ·) absent)]
    exact ih later
  | cons_cons a sublist ih =>
    obtain ⟨absent, later⟩ := List.nodup_cons.mp distinct
    rw [List.filter_cons, if_pos (by simp)]
    conv_lhs => rw [ih later]
    congr 1
    refine List.filter_congr fun b mem => ?_
    have different : b ≠ a := fun same => absent (same ▸ mem)
    simp [different]

/-- Sublists of a list without repetitions that hold the same are the same. -/
theorem sublist_ext {first second whole : List α} (firstPart : first.Sublist whole)
    (secondPart : second.Sublist whole) (distinct : whole.Nodup)
    (same : ∀ a, a ∈ first ↔ a ∈ second) : first = second := by
  rw [eq_filter_of_sublist firstPart distinct, eq_filter_of_sublist secondPart distinct]
  simp only [same]

end Sublists

section Positions

variable {α : Type} (gone : α → Bool)

/-- The positions, counted from `start`, of the elements that are gone. -/
def positions : (start : Nat) → List α → List Nat
  | _, [] => []
  | start, head :: rest =>
    if gone head then start :: positions (start + 1) rest else positions (start + 1) rest

theorem le_of_mem_positions {start position : Nat} {list : List α}
    (mem : position ∈ positions gone start list) : start ≤ position := by
  induction list generalizing start with
  | nil => simp [positions] at mem
  | cons head rest ih =>
    rw [positions] at mem
    split at mem
    · rcases List.mem_cons.mp mem with rfl | later
      · exact le_rfl
      · have := ih later
        omega
    · have := ih mem
      omega

theorem positions_ascending (start : Nat) (list : List α) : (positions gone start list).Pairwise (· < ·) := by
  induction list generalizing start with
  | nil => exact .nil
  | cons head rest ih =>
    rw [positions]
    split
    · refine List.pairwise_cons.mpr ⟨fun position mem => ?_, ih _⟩
      have := le_of_mem_positions gone mem
      omega
    · exact ih _

theorem positions_eq_nil_iff {start : Nat} {list : List α} :
    positions gone start list = [] ↔ ∀ a ∈ list, gone a = false := by
  induction list generalizing start with
  | nil => simp [positions]
  | cons head rest ih =>
    rw [positions, List.forall_mem_cons, ← @ih (start + 1)]
    split <;> simp_all

/-- Positions taken away from the last to the first leave what is not gone, in
any list made of the elements. -/
theorem foldr_eraseIdx_positions {β : Type} (entry : α → β) (front : List β) (list : List α) :
    (positions gone (front.length + 1) list).foldr (fun position held => held.eraseIdx (position - 1))
      (front ++ list.map entry) = front ++ (list.filter fun a => !gone a).map entry := by
  induction list generalizing front with
  | nil => rfl
  | cons head rest ih =>
    have later := ih (front ++ [entry head])
    rw [List.length_append, List.length_singleton, List.append_assoc, List.singleton_append] at later
    rw [positions, List.map_cons]
    split
    next isGone =>
      rw [List.foldr_cons, later, Nat.add_sub_cancel, List.append_assoc, List.singleton_append,
        List.eraseIdx_append_of_length_le le_rfl, Nat.sub_self, List.eraseIdx_cons_zero]
      simp [isGone]
    next stays =>
      rw [later]
      simp [stays]

/-- An ascending list sorted downwards is reversed. -/
theorem insertionSort_ge_eq_reverse {list : List Nat} (ascending : list.Pairwise (· < ·)) :
    list.insertionSort (· ≥ ·) = list.reverse := by
  refine List.Perm.eq_of_pairwise' (List.pairwise_insertionSort (· ≥ ·) list) ?_
    ((List.perm_insertionSort _ list).trans (List.reverse_perm list).symm)
  exact List.pairwise_reverse.mpr (ascending.imp fun less => less.le)

end Positions

end TutaBridge.Std
