import TutaBridge.Std.Batches
import TutaBridge.Std.Sorting
import TutaBridge.Std.Table
import TutaBridge.Tuta.Entities

/-!
# Batched moves and deletes

`move_mails` and `delete_mails` send their mails in requests of a limited size. A delete names
mails of one list only, so the mails are grouped by their list first, each of them once.
-/

namespace TutaBridge.Tuta.MailBatches

open TutaBridge.Std TutaBridge.Std.Batches

/-- `MAIL_BATCH_LIMIT`. -/
def mailBatchLimit : Nat := 50

/-! ## Moves -/

/-- `MoveMailData`. -/
structure MoveMailData where
  moveReason : Option String
  targetFolder : IdTuple
  mails : List IdTuple
  excludeMailSet : Option IdTuple
deriving DecidableEq, Repr

/-- The requests of `move_mails`. -/
def moveRequests (mails : List IdTuple) (targetFolder : IdTuple) : List MoveMailData :=
  (chunks mailBatchLimit (mails.destutter (· ≠ ·))).map fun chunk => ⟨none, targetFolder, chunk, none⟩

section Server

variable {ε : Type}

/-- `move_mails`: the requests that were sent, and whether it succeeded. -/
def moveMails (answer : List MoveMailData → MoveMailData → Except ε Unit) (mails : List IdTuple)
    (targetFolder : IdTuple) : List MoveMailData × Except ε Unit :=
  sendAll answer [] (moveRequests mails targetFolder)

end Server

/-! ## Deletes -/

/-- `DeleteMailData`. -/
structure DeleteMailData where
  mails : List IdTuple
  folder : Option IdTuple
deriving DecidableEq, Repr

/-- The variables of `delete_mails`. -/
structure Grouping where
  byList : List (List IdTuple)
  listIndices : Dict String Nat
  seen : List (String × String)

namespace Grouping

def empty : Grouping := ⟨[], Table.empty, []⟩

/-- The loop body of `delete_mails`. -/
def add (grouping : Grouping) (mail : IdTuple) : Grouping :=
  if (mail.listId, mail.elementId) ∈ grouping.seen then grouping
  else
    let seen := (mail.listId, mail.elementId) :: grouping.seen
    match grouping.listIndices.get? mail.listId with
    | some index => ⟨grouping.byList.modify index (· ++ [mail]), grouping.listIndices, seen⟩
    | none =>
      let index := grouping.byList.length
      ⟨(grouping.byList ++ [[]]).modify index (· ++ [mail]), grouping.listIndices.set mail.listId index, seen⟩

end Grouping

/-- The mails by their list. -/
def byList (mails : List IdTuple) : List (List IdTuple) := (mails.foldl Grouping.add .empty).byList

/-- The requests of `delete_mails`. -/
def deleteRequests (mails : List IdTuple) (folder : IdTuple) : List DeleteMailData :=
  (byList mails).flatMap fun group =>
    (chunks mailBatchLimit group).map fun chunk => ⟨chunk, some folder⟩

/-- `delete_mails`: the requests that were sent, and whether it succeeded. -/
def deleteMails {ε : Type} (answer : List DeleteMailData → DeleteMailData → Except ε Unit)
    (mails : List IdTuple) (folder : IdTuple) : List DeleteMailData × Except ε Unit :=
  sendAll answer [] (deleteRequests mails folder)

example : byList [⟨"a", "1"⟩, ⟨"b", "1"⟩, ⟨"a", "2"⟩, ⟨"a", "1"⟩] =
    [[⟨"a", "1"⟩, ⟨"a", "2"⟩], [⟨"b", "1"⟩]] := by decide

/-! ## The groups -/

/-- The groups are those of the distinct mails by the lists that were seen. -/
structure Grouped (distinct : List IdTuple) (lists : List String) (grouping : Grouping) : Prop where
  nodup : lists.Nodup
  groups : grouping.byList = lists.map fun list => distinct.filter fun mail => mail.listId = list
  indices : ∀ list, grouping.listIndices.get? list = lists.idxOf? list
  lists : ∀ mail ∈ distinct, mail.listId ∈ lists
  seen : ∀ mail : IdTuple, (mail.listId, mail.elementId) ∈ grouping.seen ↔ mail ∈ distinct

/-- What a new mail does to the groups of the other lists, and to its own. -/
theorem filter_concat (distinct : List IdTuple) (mail : IdTuple) (list : String) :
    (distinct ++ [mail]).filter (fun other => other.listId = list) =
      (distinct.filter fun other => other.listId = list) ++ if mail.listId = list then [mail] else [] := by
  rw [List.filter_append, List.filter_singleton]
  by_cases same : mail.listId = list <;> simp [same]

theorem modify_concat {α : Type} (change : α → α) (items : List α) (last : α) :
    (items ++ [last]).modify items.length change = items ++ [change last] := by
  induction items with
  | nil => rfl
  | cons item rest ih =>
    rw [List.cons_append, List.length_cons, List.modify_succ_cons, ih, List.cons_append]

/-- A mail that was seen changes nothing, and another is the last of its group. -/
theorem Grouped.add {distinct : List IdTuple} {lists : List String} {grouping : Grouping}
    (grouped : Grouped distinct lists grouping) (mail : IdTuple) :
    ∃ later, Grouped (if mail ∈ distinct then distinct else distinct ++ [mail]) later (grouping.add mail) := by
  by_cases isSeen : mail ∈ distinct
  · have unchanged : grouping.add mail = grouping := by
      rw [Grouping.add, if_pos ((grouped.seen mail).mpr isSeen)]
    rw [if_pos isSeen, unchanged]
    exact ⟨lists, grouped⟩
  have unseen := mt (grouped.seen mail).mp isSeen
  have nowSeen : ∀ other : IdTuple, (other.listId, other.elementId) ∈
      (mail.listId, mail.elementId) :: grouping.seen ↔ other ∈ distinct ++ [mail] := by
    intro other
    have sameIds : (other.listId, other.elementId) = (mail.listId, mail.elementId) ↔ other = mail := by
      cases other
      cases mail
      simp
    rw [List.mem_cons, grouped.seen, List.mem_append, List.mem_singleton, sameIds, or_comm]
  rw [if_neg isSeen, Grouping.add, if_neg unseen, grouped.indices]
  cases known : lists.idxOf? mail.listId with
  | some index =>
    refine ⟨lists, ⟨grouped.nodup, ?_, grouped.indices, ?_, nowSeen⟩⟩
    · -- the group at the list's index is the only one that changes
      obtain ⟨inRange, isList, -⟩ := List.idxOf?_eq_some_iff.mp known
      dsimp only
      rw [grouped.groups]
      refine List.ext_getElem? fun place => ?_
      rw [List.getElem?_modify, List.getElem?_map, List.getElem?_map]
      cases there : lists[place]? with
      | none => rfl
      | some list =>
        simp only [Option.map_some, filter_concat]
        by_cases isIndex : index = place
        · subst isIndex
          rw [List.getElem?_eq_getElem inRange, isList] at there
          simp [Option.some.inj there]
        · obtain ⟨placeInRange, isPlace⟩ := List.getElem?_eq_some_iff.mp there
          have different : mail.listId ≠ list := by
            rintro rfl
            exact isIndex ((List.getElem_inj grouped.nodup).mp (isList.trans isPlace.symm))
          simp [isIndex, different]
    · obtain ⟨inRange, isList, -⟩ := List.idxOf?_eq_some_iff.mp known
      refine List.forall_mem_append.mpr ⟨grouped.lists, List.forall_mem_singleton.mpr ?_⟩
      exact isList ▸ List.getElem_mem inRange
  | none =>
    have isNew : mail.listId ∉ lists := List.idxOf?_eq_none_iff.mp known
    have count : grouping.byList.length = lists.length := by rw [grouped.groups, List.length_map]
    refine ⟨lists ++ [mail.listId], ⟨?_, ?_, ?_, ?_, nowSeen⟩⟩
    · rw [List.nodup_append]
      refine ⟨grouped.nodup, List.nodup_singleton _, fun list mem other isOther => ?_⟩
      rw [List.mem_singleton] at isOther
      rintro rfl
      exact isNew (isOther ▸ mem)
    · dsimp only
      have others : ∀ list ∈ lists, mail.listId ≠ list := by
        rintro list mem rfl
        exact isNew mem
      have noneYet : distinct.filter (fun other => other.listId = mail.listId) = [] := by
        rw [List.filter_eq_nil_iff]
        intro other mem
        simpa using fun same : other.listId = mail.listId => isNew (same ▸ grouped.lists other mem)
      have own := filter_concat distinct mail mail.listId
      rw [noneYet, if_pos rfl, List.nil_append] at own
      rw [modify_concat, List.nil_append, List.map_append, List.map_singleton, own, grouped.groups]
      congr 1
      refine List.map_congr_left fun list mem => ?_
      rw [filter_concat, if_neg (others list mem), List.append_nil]
    · intro list
      dsimp only
      rw [Dict.get?_set, grouped.indices, count]
      by_cases isOwn : list = mail.listId
      · subst isOwn
        rw [if_pos rfl, eq_comm, List.idxOf?_eq_some_iff]
        refine ⟨by simp, by simp, fun place before same => ?_⟩
        rw [List.getElem_append_left before] at same
        exact isNew (same ▸ List.getElem_mem before)
      · rw [if_neg isOwn]
        cases place : lists.idxOf? list with
        | none =>
          have absent := List.idxOf?_eq_none_iff.mp place
          exact (List.idxOf?_eq_none_iff.mpr (by simp [absent, isOwn])).symm
        | some index =>
          obtain ⟨inRange, isList, first⟩ := List.idxOf?_eq_some_iff.mp place
          rw [eq_comm, List.idxOf?_eq_some_iff]
          refine ⟨by simp; omega, by rw [List.getElem_append_left inRange, isList], ?_⟩
          intro earlier before
          rw [List.getElem_append_left (by omega)]
          exact first earlier before
    · refine List.forall_mem_append.mpr ⟨fun other mem => ?_, List.forall_mem_singleton.mpr (by simp)⟩
      exact List.mem_append_left _ (grouped.lists other mem)

/-- The first of equal mails is kept. -/
theorem eraseDups_concat (mails : List IdTuple) (mail : IdTuple) : (mails ++ [mail]).eraseDups =
      if mail ∈ mails.eraseDups then mails.eraseDups else mails.eraseDups ++ [mail] := by
  rw [List.eraseDups_append]
  by_cases isSeen : mail ∈ mails
  · rw [if_pos (List.mem_eraseDups.mpr isSeen)]
    simp [List.removeAll, isSeen]
  · rw [if_neg (mt List.mem_eraseDups.mp isSeen)]
    simp [List.removeAll, isSeen, List.eraseDups_cons]

theorem nodup_eraseDups (mails : List IdTuple) : mails.eraseDups.Nodup := by
  induction mails using List.reverseRecOn with
  | nil => exact List.nodup_nil
  | append_singleton mails mail ih =>
    rw [eraseDups_concat]
    split
    next => exact ih
    next isNew => exact List.nodup_append.mpr ⟨ih, List.nodup_singleton mail, by
      intro other mem last isLast
      rintro rfl
      exact isNew (List.mem_singleton.mp isLast ▸ mem)⟩

theorem exists_grouped (mails : List IdTuple) :
    ∃ lists, Grouped mails.eraseDups lists (mails.foldl Grouping.add .empty) := by
  induction mails using List.reverseRecOn with
  | nil =>
    exact ⟨[], ⟨List.nodup_nil, rfl, fun _ => rfl, List.forall_mem_nil _, fun _ => by simp [Grouping.empty]⟩⟩
  | append_singleton mails mail ih =>
    obtain ⟨lists, grouped⟩ := ih
    rw [List.foldl_append, List.foldl_cons, List.foldl_nil, eraseDups_concat]
    exact grouped.add mail

/-! ## What is sent -/

section Sent

variable (mails : List IdTuple) (folder : IdTuple)

/-- The mails of the requests are those of the groups. -/
theorem flatMap_deleteRequests :
    (deleteRequests mails folder).flatMap DeleteMailData.mails = (byList mails).flatten := by
  have each : ∀ group : List IdTuple, ((chunks mailBatchLimit group).map fun chunk =>
      (⟨chunk, some folder⟩ : DeleteMailData)).flatMap DeleteMailData.mails = group := by
    intro group
    rw [List.flatMap_map, List.flatMap_id']
    exact flatten_chunks mailBatchLimit group
  rw [deleteRequests, List.flatMap_assoc, List.flatMap_congr fun group _ => each group, List.flatMap_id']

/-- Of the groups of distinct lists, the one of a list has all of its mails. -/
theorem filter_groups {lists : List String} (nodup : lists.Nodup) {distinct : List IdTuple}
    (known : ∀ mail ∈ distinct, mail.listId ∈ lists) (list : String) :
    (lists.flatMap fun other => distinct.filter fun mail => mail.listId = other).filter
        (fun mail => mail.listId = list) = distinct.filter fun mail => mail.listId = list := by
  by_cases isKnown : list ∈ lists
  · obtain ⟨before, after, rfl⟩ := List.append_of_mem isKnown
    have others : ∀ lists : List String, list ∉ lists →
        (lists.flatMap fun other => distinct.filter fun mail => mail.listId = other).filter
          (fun mail => mail.listId = list) = [] := by
      intro lists absent
      rw [List.filter_eq_nil_iff]
      intro mail mem
      obtain ⟨other, isOther, inGroup⟩ := List.mem_flatMap.mp mem
      simp only [List.mem_filter, decide_eq_true_eq] at inGroup ⊢
      rintro rfl
      exact absent (inGroup.2 ▸ isOther)
    have apart := List.nodup_middle.mp nodup
    obtain ⟨notBefore, notAfter⟩ := not_or.mp (mt List.mem_append.mpr (List.nodup_cons.mp apart).1)
    rw [List.flatMap_append, List.flatMap_cons, List.filter_append, List.filter_append,
      others before notBefore, others after notAfter, List.nil_append, List.append_nil, List.filter_filter]
    simp
  · have none : distinct.filter (fun mail => mail.listId = list) = [] := by
      rw [List.filter_eq_nil_iff]
      intro mail mem
      simpa using fun same : mail.listId = list => isKnown (same ▸ known mail mem)
    rw [none, List.filter_eq_nil_iff]
    intro mail mem
    obtain ⟨other, -, inGroup⟩ := List.mem_flatMap.mp mem
    simpa using fun same : mail.listId = list => isKnown (same ▸ known mail (List.mem_filter.mp inGroup).1)

/-- The delete requests name each mail once, those of one list in the order in which they were
first named. -/
theorem mails_deleteRequests : ((deleteRequests mails folder).flatMap DeleteMailData.mails).Nodup ∧
      (∀ mail, mail ∈ (deleteRequests mails folder).flatMap DeleteMailData.mails ↔ mail ∈ mails) ∧
      ∀ list, ((deleteRequests mails folder).flatMap DeleteMailData.mails).filter (fun mail => mail.listId = list) =
        mails.eraseDups.filter fun mail => mail.listId = list := by
  obtain ⟨lists, grouped⟩ := exists_grouped mails
  have distinct := nodup_eraseDups mails
  have whole : (byList mails).flatten =
      lists.flatMap fun list => mails.eraseDups.filter fun mail => mail.listId = list := by
    rw [byList, grouped.groups]
    rfl
  rw [flatMap_deleteRequests, whole]
  refine ⟨?_, fun mail => ?_, fun list => ?_⟩
  · refine List.nodup_flatMap.mpr ⟨fun list _ => distinct.filter _, grouped.nodup.imp ?_⟩
    intro first second different mail inFirst inSecond
    simp only [List.mem_filter, decide_eq_true_eq] at inFirst inSecond
    exact different (inFirst.2.symm.trans inSecond.2)
  · simp only [List.mem_flatMap, List.mem_filter, decide_eq_true_eq, List.mem_eraseDups]
    constructor
    · rintro ⟨list, -, mem, -⟩
      exact mem
    · intro mem
      exact ⟨mail.listId, grouped.lists mail (List.mem_eraseDups.mpr mem), mem, rfl⟩
  · exact filter_groups grouped.nodup grouped.lists list

/-- A delete request names mails of one list, a few of them, and the folder. -/
theorem of_mem_deleteRequests {request : DeleteMailData} (mem : request ∈ deleteRequests mails folder) :
    (∃ list, ∀ mail ∈ request.mails, mail.listId = list) ∧ request.mails ≠ [] ∧
      request.mails.length ≤ mailBatchLimit ∧ request.folder = some folder := by
  obtain ⟨lists, grouped⟩ := exists_grouped mails
  obtain ⟨group, isGroup, inGroup⟩ := List.mem_flatMap.mp mem
  obtain ⟨chunk, isChunk, rfl⟩ := List.mem_map.mp inGroup
  rw [byList, grouped.groups] at isGroup
  obtain ⟨list, -, rfl⟩ := List.mem_map.mp isGroup
  obtain ⟨notEmpty, short⟩ := length_of_mem_chunks (by decide) isChunk
  refine ⟨⟨list, fun mail inChunk => ?_⟩, notEmpty, short, rfl⟩
  simpa using (List.mem_filter.mp (mem_of_mem_chunks isChunk inChunk)).2

theorem mails_moveRequests : (moveRequests mails folder).flatMap MoveMailData.mails = mails.destutter (· ≠ ·) := by
  rw [moveRequests, List.flatMap_map, List.flatMap_id']
  exact flatten_chunks mailBatchLimit _

theorem of_mem_moveRequests {request : MoveMailData} (mem : request ∈ moveRequests mails folder) :
    request.mails ≠ [] ∧ request.mails.length ≤ mailBatchLimit ∧ request.targetFolder = folder := by
  obtain ⟨chunk, isChunk, rfl⟩ := List.mem_map.mp mem
  obtain ⟨notEmpty, short⟩ := length_of_mem_chunks (by decide) isChunk
  exact ⟨notEmpty, short, rfl⟩

end Sent

/-- Batched deletes and moves cover every mail. What is sent begins the planned requests, and is
all of them where all succeed. The planned deletes name each mail once and those of one list in
the order in which they were first named; the planned moves name the mails as they were given,
adjacent repetitions apart. -/
theorem batches_cover {ε : Type} (mails : List IdTuple) (folder : IdTuple)
    (answerDelete : List DeleteMailData → DeleteMailData → Except ε Unit)
    (answerMove : List MoveMailData → MoveMailData → Except ε Unit) :
    (((deleteMails answerDelete mails folder).1 <+: deleteRequests mails folder ∧
        ((deleteMails answerDelete mails folder).2 = .ok () →
          (deleteMails answerDelete mails folder).1 = deleteRequests mails folder)) ∧
      (((deleteRequests mails folder).flatMap DeleteMailData.mails).Nodup ∧
        (∀ mail, mail ∈ (deleteRequests mails folder).flatMap DeleteMailData.mails ↔ mail ∈ mails) ∧
        ∀ list, ((deleteRequests mails folder).flatMap DeleteMailData.mails).filter
          (fun mail => mail.listId = list) = mails.eraseDups.filter fun mail => mail.listId = list) ∧
      ∀ request ∈ deleteRequests mails folder, (∃ list, ∀ mail ∈ request.mails, mail.listId = list) ∧
        request.mails ≠ [] ∧ request.mails.length ≤ mailBatchLimit ∧ request.folder = some folder) ∧
      ((moveMails answerMove mails folder).1 <+: moveRequests mails folder ∧
        ((moveMails answerMove mails folder).2 = .ok () →
          (moveMails answerMove mails folder).1 = moveRequests mails folder)) ∧
      ((moveRequests mails folder).flatMap MoveMailData.mails = mails.destutter (· ≠ ·) ∧
        ∀ mail, mail ∈ (moveRequests mails folder).flatMap MoveMailData.mails ↔ mail ∈ mails) ∧
      ∀ request ∈ moveRequests mails folder, request.mails ≠ [] ∧
        request.mails.length ≤ mailBatchLimit ∧ request.targetFolder = folder := by
  have moved := mails_moveRequests mails folder
  refine ⟨⟨sendAll_isPrefixOf answerDelete [] _, mails_deleteRequests mails folder,
    fun request mem => of_mem_deleteRequests mails folder mem⟩,
    sendAll_isPrefixOf answerMove [] _, ⟨moved, fun mail => ?_⟩,
    fun request mem => of_mem_moveRequests mails folder mem⟩
  rw [moved]
  exact mem_destutter

end TutaBridge.Tuta.MailBatches
