import TutaBridge.Events.HandlerFacts
import TutaBridge.Std.Replay

/-!
# Buckets against batch order

A `MailSetEntry` CREATE puts a mail into a folder and a DELETE takes it out, so
a batch of them is a log of insertions and removals over (folder, mail) pairs.
`applyBatch` replays the log with its insertions first. That is what the batch
means, unless a mail that left a folder comes back to it in the same batch.
-/

namespace TutaBridge.Events

open TutaBridge.Std Tuta Store Bridge Sync

variable {ev : EntityUpdateEvent} {pair : String × String}

/-- Which mail is in which folder. -/
def members (world : World) (pair : String × String) : Prop := world.store.Holds pair.1 pair.2

/-- The folder and the mail an entry event is about. -/
def entryPair (folders : List FolderInfo) (ev : EntityUpdateEvent) : Option (String × String) :=
  match MailSetEntryId.deconstruct ev.instanceId with
  | .error _ => none
  | .ok (_, mailEid) =>
    (folderByEntries folders ev.instanceListId).map fun folder => (folder.id, mailEid)

/-- An entry event as a change of the membership. -/
def entryChange (folders : List FolderInfo) (ev : EntityUpdateEvent) : Option (Change (String × String)) :=
  (entryPair folders ev).map fun pair => if isEntryCreate ev then .insert pair else .remove pair

/-- The event is a `MailSetEntry` CREATE or DELETE of a known folder with an id
that decodes. -/
structure EntryEvent (folders : List FolderInfo) (ev : EntityUpdateEvent) : Prop where
  kind : isEntryCreate ev ∨ isEntryDelete ev
  pair : (entryPair folders ev).isSome

/-- The server still has the mail the event places: the inlined entry names it,
and a request for it is answered. -/
def Loadable (backend : MailBackend) (ev : EntityUpdateEvent) : Prop :=
  ∀ at_ mailEid, MailSetEntryId.deconstruct ev.instanceId = .ok (at_, mailEid) →
    ∃ json, ev.inlined = some json ∧ ∀ tick, ∃ entry,
      backend.decryptInlineMailSetEntry tick json = .ok (some entry) ∧
        ∀ tick, ∃ mail, backend.loadMail tick entry.mail.listId entry.mail.elementId =
          .ok (some mail) ∧ mail.elementId = some mailEid

/-- The updates one at a time, each as a batch of its own. -/
def applyOneByOne (env : Env) (batch : EntityUpdateBatch) (world : World) : World :=
  batch.updates.foldl (fun world ev => applyBatch env { batch with updates := [ev] } world) world

variable {env : Env} {folders : List FolderInfo}

theorem entryPair_eq_some_imp (found : entryPair folders ev = some pair) :
    ∃ at_ target, MailSetEntryId.deconstruct ev.instanceId = .ok (at_, pair.2) ∧
      folderByEntries folders ev.instanceListId = some target ∧ target.id = pair.1 := by
  unfold entryPair at found
  split at found
  · cases found
  next at_ mailEid decoded =>
    obtain ⟨target, known, rfl⟩ := Option.map_eq_some_iff.mp found
    exact ⟨at_, target, decoded, known, rfl⟩

/-! ## One event -/

/-- A create whose mail can be loaded inserts its pair and queues no fallback. -/
theorem create_inserts (found : entryPair folders ev = some pair) (loadable : Loadable env.backend ev)
    {run : BatchRun} (noneInlined : run.pending = .empty) :
    let after := applyMailSetEntryCreate env folders run ev
    (∀ other, members after.world other ↔ (Change.insert pair).apply (members run.world) other) ∧
      after.pending = .empty ∧ after.fallbackFolders = run.fallbackFolders ∧
      after.world.store.folderList = run.world.store.folderList := by
  obtain ⟨at_, target, decoded, known, targetId⟩ := entryPair_eq_some_imp found
  obtain ⟨json, inlined, answers⟩ := loadable at_ pair.2 decoded
  obtain ⟨entry, decrypted, loads⟩ := answers run.world.tick
  have resolved : (resolveMailSetEntry env ev run.world).1 = some entry.mail := by
    simp [resolveMailSetEntry, inlined, decrypted]
  have samePair : ∀ other : String × String, (other.1 = target.id ∧ other.2 = pair.2) ↔ other = pair := by
    intro other
    rw [targetId, Prod.ext_iff]
  dsimp only
  have outcome := createOutcome env folders run ev
  generalize applyMailSetEntryCreate env folders run ev = after at outcome ⊢
  cases outcome with
  | unplaced unknown => exact absurd known (unknown at_ pair.2 target decoded)
  | cached decoded' known' located =>
    cases decoded.symm.trans decoded'
    cases known.symm.trans known'
    have identified := (MailStore.findMailAnywhere_eq_some_imp located).2
    refine ⟨fun other => ?_, noneInlined, rfl, folderList_assignUidAndUpsert _ _ _ _ _⟩
    simp only [members, holds_assignUidAndUpsert env target pair.2 _ identified, samePair, Change.apply]
  | inlined _ _ _ held =>
    rw [noneInlined] at held
    simp at held
  | unresolved _ _ _ _ noEntry => simp [resolved] at noEntry
  | @loaded _ _ _ _ mail decoded' known' _ _ entry' answered =>
    cases decoded.symm.trans decoded'
    cases known.symm.trans known'
    cases resolved.symm.trans entry'
    obtain ⟨answer, loads, answerId⟩ := loads (resolveMailSetEntry env ev run.world).2.tick
    have identified : mail.elementId = some pair.2 := by
      cases loads.symm.trans answered
      exact answerId
    obtain ⟨sameStore, _⟩ := requested_stores env ev run.world
    refine ⟨fun other => ?_, noneInlined, rfl, ?_⟩
    · unfold members
      rw [holds_assignUidAndUpsert env target _ (newlyStored mail) identified, samePair]
      simp only [Change.apply, sameStore]
    · rw [folderList_assignUidAndUpsert]
      exact congrArg MailStore.folderList sameStore
  | gone _ _ _ _ entry' answered =>
    cases resolved.symm.trans entry'
    obtain ⟨mail, loads, _⟩ := loads (resolveMailSetEntry env ev run.world).2.tick
    simp [loads] at answered
  | failed _ _ _ _ entry' answered =>
    cases resolved.symm.trans entry'
    obtain ⟨mail, loads, _⟩ := loads (resolveMailSetEntry env ev run.world).2.tick
    simp [loads] at answered

/-- A delete removes its pair. -/
theorem delete_removes (found : entryPair folders ev = some pair) (world : World) :
    let after := applyMailSetEntryDelete env folders world ev
    (∀ other, members after other ↔ (Change.remove pair).apply (members world) other) ∧
      after.store.folderList = world.store.folderList := by
  obtain ⟨at_, target, decoded, known, targetId⟩ := entryPair_eq_some_imp found
  have store : (applyMailSetEntryDelete env folders world ev).store =
      (world.store.removeMailFromFolder target.id pair.2).2 := by
    simp only [applyMailSetEntryDelete, decoded, known]
    split
    · rfl
    · rw [World.deleteMail_store]
      rfl
  refine ⟨fun other => ?_, ?_⟩
  · simp only [members, store, MailStore.holds_removeMailFromFolder, targetId, Change.apply,
      ← Prod.ext_iff, ne_eq]
  · rw [store, MailStore.folderList_removeMailFromFolder]

theorem delete_of_no_pair (noPair : entryPair folders ev = none)
    (world : World) : applyMailSetEntryDelete env folders world ev = world := by
  rcases deleteOutcome env folders world ev with same | ⟨at_, mailEid, source, decoded, known, _⟩
  · exact same
  · simp [entryPair, decoded, known] at noPair

/-- A delete removes its pair, if it has one, and nothing else. -/
theorem delete_facts (ev : EntityUpdateEvent) (world : World) (pair : String × String) :
    (members (applyMailSetEntryDelete env folders world ev) pair ↔
        members world pair ∧ entryPair folders ev ≠ some pair) ∧
      (applyMailSetEntryDelete env folders world ev).store.folderList = world.store.folderList := by
  cases found : entryPair folders ev with
  | none =>
    simp [delete_of_no_pair found]
  | some removed =>
    obtain ⟨removes, sameFolders⟩ := @delete_removes ev removed env folders found world
    refine ⟨?_, sameFolders⟩
    rw [removes, ne_eq, Option.some.injEq]
    exact ⟨fun ⟨kept, mem⟩ => ⟨mem, fun equal => kept equal.symm⟩,
      fun ⟨mem, kept⟩ => ⟨fun equal => kept equal.symm, mem⟩⟩

/-! ## The batch -/

section Batch

variable {updates : List EntityUpdateEvent}

/-- The log a batch of entry events stands for. -/
def entryLog (folders : List FolderInfo) (updates : List EntityUpdateEvent) :
    List (Change (String × String)) :=
  updates.filterMap (entryChange folders)

theorem entryChange_create (isCreate : isEntryCreate ev) (found : entryPair folders ev = some pair) :
    entryChange folders ev = some (.insert pair) := by
  simp [entryChange, found, isCreate]

theorem entryChange_delete (isDelete : isEntryDelete ev) (found : entryPair folders ev = some pair) :
    entryChange folders ev = some (.remove pair) := by
  have notCreate : ¬ isEntryCreate ev := by
    simp only [isEntryDelete, isEntryCreate, decide_eq_true_eq] at isDelete ⊢
    simp [isDelete]
  simp [entryChange, found, notCreate]

/-- The create loop inserts the pairs of its events. -/
theorem creates_replay (updates : List EntityUpdateEvent)
    (events : ∀ ev ∈ updates, EntryEvent folders ev ∧ isEntryCreate ev)
    (loadable : ∀ ev ∈ updates, Loadable env.backend ev) (run : BatchRun)
    (noneInlined : run.pending = .empty) :
    let after := updates.foldl (applyMailSetEntryCreate env folders) run
    (∀ pair, members after.world pair ↔ replay (members run.world) (entryLog folders updates) pair) ∧
      after.fallbackFolders = run.fallbackFolders ∧
      after.world.store.folderList = run.world.store.folderList := by
  induction updates generalizing run with
  | nil => exact ⟨fun _ => Iff.rfl, rfl, rfl⟩
  | cons ev rest ih =>
    obtain ⟨isEntry, isCreate⟩ := events ev List.mem_cons_self
    obtain ⟨pair, found⟩ := Option.isSome_iff_exists.mp isEntry.pair
    obtain ⟨inserted, pending, fallbacks, folderList⟩ :=
      create_inserts found (loadable ev List.mem_cons_self) noneInlined
    obtain ⟨restMembers, restFallbacks, restFolderList⟩ := ih
      (fun other mem => events other (List.mem_cons_of_mem _ mem))
      (fun other mem => loadable other (List.mem_cons_of_mem _ mem)) _ pending
    refine ⟨fun other => ?_, restFallbacks.trans fallbacks, restFolderList.trans folderList⟩
    have log : entryLog folders (ev :: rest) = .insert pair :: entryLog folders rest :=
      List.filterMap_cons_some (entryChange_create isCreate found)
    have sameStart : members (applyMailSetEntryCreate env folders run ev).world =
        (Change.insert pair).apply (members run.world) :=
      funext fun other => propext (inserted other)
    rw [List.foldl_cons, restMembers, log, sameStart]
    rfl

/-- The delete loop removes the pairs of its events. -/
theorem deletes_replay (updates : List EntityUpdateEvent)
    (events : ∀ ev ∈ updates, EntryEvent folders ev ∧ isEntryDelete ev)
    (world : World) :
    let after := updates.foldl (applyMailSetEntryDelete env folders) world
    (∀ pair, members after pair ↔ replay (members world) (entryLog folders updates) pair) ∧
      after.store.folderList = world.store.folderList := by
  induction updates generalizing world with
  | nil => exact ⟨fun _ => Iff.rfl, rfl⟩
  | cons ev rest ih =>
    obtain ⟨isEntry, isDelete⟩ := events ev List.mem_cons_self
    obtain ⟨pair, found⟩ := Option.isSome_iff_exists.mp isEntry.pair
    obtain ⟨removed, folderList⟩ := delete_removes found world
    obtain ⟨restMembers, restFolderList⟩ := ih (fun other mem => events other (List.mem_cons_of_mem _ mem))
      (applyMailSetEntryDelete env folders world ev)
    refine ⟨fun other => ?_, restFolderList.trans folderList⟩
    have log : entryLog folders (ev :: rest) = .remove pair :: entryLog folders rest :=
      List.filterMap_cons_some (entryChange_delete isDelete found)
    have sameStart : members (applyMailSetEntryDelete env folders world ev) =
        (Change.remove pair).apply (members world) :=
      funext fun other => propext (removed other)
    rw [List.foldl_cons, restMembers, log, sameStart]
    rfl

/-- The log of the events of one kind is the part of the log of that kind. -/
theorem entryLog_filter {ofEvent : EntityUpdateEvent → Bool} {ofChange : Change (String × String) → Bool}
    (agree : ∀ ev ∈ updates, ∀ change, entryChange folders ev = some change → ofChange change = ofEvent ev) :
    entryLog folders (updates.filter ofEvent) = (entryLog folders updates).filter ofChange := by
  unfold entryLog
  rw [List.filterMap_filter, List.filter_filterMap]
  apply List.filterMap_congr
  intro ev mem
  cases found : entryChange folders ev with
  | none => simp
  | some change => simp [Option.filter, agree ev mem change found]

theorem isInsert_entryChange {change : Change (String × String)}
    (found : entryChange folders ev = some change) : change.isInsert = isEntryCreate ev := by
  obtain ⟨pair, _, rfl⟩ := Option.map_eq_some_iff.mp found
  split
  next isCreate => simp [Change.isInsert, isCreate]
  next notCreate => simp [Change.isInsert, notCreate]

theorem EntryEvent.isEntryDelete_eq (event : EntryEvent folders ev) :
    isEntryDelete ev = !isEntryCreate ev := by
  rcases event.kind with isCreate | isDelete
  · rw [isCreate]
    simp only [isEntryCreate, decide_eq_true_eq] at isCreate
    simp [isEntryDelete, isCreate]
  · rw [isDelete]
    simp only [isEntryDelete, decide_eq_true_eq] at isDelete
    simp [isEntryCreate, isDelete]

/-- The log of the two buckets, one after the other. -/
theorem entryLog_buckets (events : ∀ ev ∈ updates, EntryEvent folders ev) :
    entryLog folders (updates.filter isEntryCreate) ++ entryLog folders (updates.filter isEntryDelete) =
      insertsFirst (entryLog folders updates) := by
  have creates : entryLog folders (updates.filter isEntryCreate) =
      (entryLog folders updates).filter Change.isInsert :=
    entryLog_filter fun ev _ change found => isInsert_entryChange found
  have deletes : entryLog folders (updates.filter isEntryDelete) =
      (entryLog folders updates).filter fun change => !change.isInsert := by
    refine entryLog_filter fun ev mem change found => ?_
    rw [isInsert_entryChange found, (events ev mem).isEntryDelete_eq]
  rw [creates, deletes, insertsFirst]

end Batch

/-- The kinds of entry events exclude the other buckets. -/
theorem EntryEvent.no_other_bucket (event : EntryEvent folders ev) :
    isMailCreate ev = false ∧ isMailEvent ev = false ∧ isMailSetEvent ev = false := by
  have isEntry : ev.typeId = mailSetEntryTypeId := by
    rcases event.kind with kind | kind
    · simp only [isEntryCreate, decide_eq_true_eq] at kind
      exact kind.2.1
    · simp only [isEntryDelete, decide_eq_true_eq] at kind
      exact kind.2.1
  simp [isMailCreate, isMailEvent, isMailSetEvent, isEntry, mailSetEntryTypeId, mailTypeId, mailSetTypeId]

section

variable (batch : EntityUpdateBatch) (world : World)
    (events : ∀ ev ∈ batch.updates, EntryEvent world.store.folderList ev)
    (loadable : ∀ ev ∈ batch.updates, isEntryCreate ev → Loadable env.backend ev)

include batch world events loadable

/-- A batch of entry events replays its log with the insertions first. -/
theorem applyBatch_members : (∀ pair, members (applyBatch env batch world) pair ↔
        replay (members world) (insertsFirst (entryLog world.store.folderList batch.updates)) pair) ∧
      (applyBatch env batch world).store.folderList = world.store.folderList := by
  have noMailCreates : batch.updates.filter isMailCreate = [] :=
    List.filter_eq_nil_iff.mpr fun ev mem => by simp [(events ev mem).no_other_bucket.1]
  have noMailEvents : batch.updates.filter isMailEvent = [] :=
    List.filter_eq_nil_iff.mpr fun ev mem => by simp [(events ev mem).no_other_bucket.2.1]
  have notDirty : batch.updates.any isMailSetEvent = false := by
    rw [List.any_eq_false]
    intro ev mem
    simp [(events ev mem).no_other_bucket.2.2]
  obtain ⟨created, fallbacks, createdFolders⟩ := creates_replay (batch.updates.filter isEntryCreate)
    (fun ev mem => ⟨events ev (List.mem_of_mem_filter mem), List.of_mem_filter mem⟩)
    (fun ev mem => loadable ev (List.mem_of_mem_filter mem) (List.of_mem_filter mem))
    ⟨world, .empty, []⟩ rfl
  obtain ⟨deleted, deletedFolders⟩ := deletes_replay (batch.updates.filter isEntryDelete)
    (fun ev mem => ⟨events ev (List.mem_of_mem_filter mem), List.of_mem_filter mem⟩)
    ((batch.updates.filter isEntryCreate).foldl
      (applyMailSetEntryCreate env world.store.folderList) ⟨world, .empty, []⟩).world
  have noFallback : ∀ tick, env.hashOrder tick [] = [] :=
    fun tick => (env.hashOrder_perm tick []).eq_nil
  have applied : applyBatch env batch world = (batch.updates.filter isEntryDelete).foldl
        (applyMailSetEntryDelete env world.store.folderList)
        ((batch.updates.filter isEntryCreate).foldl
          (applyMailSetEntryCreate env world.store.folderList) ⟨world, .empty, []⟩).world := by
    simp only [applyBatch, applyDeletes, applyCreates, batchFolders, beginBatch, bucketUpdates_eq, noMailCreates,
      noMailEvents, notDirty,
      predecryptMailCreates, Bool.false_eq_true, if_false, List.foldl_nil, fallbacks, noFallback]
  rw [applied]
  refine ⟨fun pair => ?_, deletedFolders.trans createdFolders⟩
  have sameCreated := funext fun pair => propext (created pair)
  rw [deleted, sameCreated, ← replay_append, entryLog_buckets events]

/-- Applied one at a time, the events replay their log in order. -/
theorem applyOneByOne_members (pair : String × String) : members (applyOneByOne env batch world) pair ↔
      replay (members world) (entryLog world.store.folderList batch.updates) pair := by
  obtain ⟨batchId, groupId, updates⟩ := batch
  simp only [applyOneByOne] at events loadable ⊢
  induction updates generalizing world with
  | nil => exact Iff.rfl
  | cons ev rest ih =>
    have isEntry := events ev List.mem_cons_self
    obtain ⟨change, found⟩ : ∃ change, entryChange world.store.folderList ev = some change := by
      obtain ⟨pair, found⟩ := Option.isSome_iff_exists.mp isEntry.pair
      exact ⟨_, by rw [entryChange, found, Option.map_some]⟩
    obtain ⟨stepMembers, sameFolders⟩ := applyBatch_members ⟨batchId, groupId, [ev]⟩ world
      (fun other mem => events other (by simp_all))
      (fun other mem => loadable other (by simp_all))
    have singleLog : insertsFirst (entryLog world.store.folderList [ev]) = [change] := by
      cases kind : change.isInsert <;> simp [entryLog, found, insertsFirst, kind]
    have stepEq : members (applyBatch env ⟨batchId, groupId, [ev]⟩ world) = change.apply (members world) := by
      funext other
      rw [propext (stepMembers other), singleLog]
      rfl
    have log : entryLog world.store.folderList (ev :: rest) =
        change :: entryLog world.store.folderList rest := List.filterMap_cons_some found
    have restMembers := ih (applyBatch env ⟨batchId, groupId, [ev]⟩ world) (fun other mem => by
        rw [sameFolders]
        exact events other (List.mem_cons_of_mem _ mem))
      (fun other mem => loadable other (List.mem_cons_of_mem _ mem))
    rw [List.foldl_cons, restMembers, log, stepEq, sameFolders]
    rfl

end

/-- For a batch of entry events whose mails the server can still give: `applyBatch`
puts into every folder the mails that the events one at a time would, exactly
when no mail that the batch takes out of a folder ends up put back into it. -/
theorem bucketing_preserves_iff_no_return (env : Env) (batch : EntityUpdateBatch) (world : World)
    (events : ∀ ev ∈ batch.updates, EntryEvent world.store.folderList ev)
    (loadable : ∀ ev ∈ batch.updates, isEntryCreate ev → Loadable env.backend ev) :
    (∀ folderId elementId, (applyBatch env batch world).store.Holds folderId elementId ↔
        (applyOneByOne env batch world).store.Holds folderId elementId) ↔
      ∀ folderId elementId, ¬ Returns (entryLog world.store.folderList batch.updates) (folderId, elementId) := by
  refine forall_congr' fun folderId => forall_congr' fun elementId => ?_
  have bucketed := (applyBatch_members batch world events loadable).1 (folderId, elementId)
  have inOrder := applyOneByOne_members batch world events loadable (folderId, elementId)
  rw [← replay_insertsFirst_iff (members world)]
  exact iff_congr bucketed inOrder

/-- The mail in the inbox, and an empty archive beside it. -/
def twoFolders : World :=
  sampleWorld [sampleFolder "inbox" "inboxEntries", sampleFolder "archive" "archiveEntries"]
    [("inbox", [sampleStored entryMail 1])]

/-- The server that still has the mail. -/
def twoFoldersEnv : Env := quietEnv (listingBackend [] [sampleMail entryMail])

theorem entryEvent_loadable (entriesListId : String) (operation : Operation) :
    Loadable twoFoldersEnv.backend (entryEvent entriesListId operation) := by
  intro at_ mailEid decoded
  cases entryEvent_mail decoded
  have listed : [sampleMail entryMail].find? (fun mail => mail.elementId = some entryMail) =
      some (sampleMail entryMail) := by decide
  exact ⟨entryMail, rfl, fun _ => ⟨⟨⟨"list1", entryMail⟩⟩, rfl, fun _ => ⟨sampleMail entryMail,
    congrArg Except.ok listed, rfl⟩⟩⟩

/-- A MOVE, delete first, ends in the archive either way. -/
theorem bucketing_preserves_move :
    let batch : EntityUpdateBatch := ⟨"b1", "g1",
      [entryEvent "inboxEntries" .delete, entryEvent "archiveEntries" .create]⟩
    (applyBatch twoFoldersEnv batch twoFolders).store.Holds "archive" entryMail ∧
      ((applyBatch twoFoldersEnv batch twoFolders).store.Holds "archive" entryMail ↔
        (applyOneByOne twoFoldersEnv batch twoFolders).store.Holds "archive" entryMail) := by
  intro batch
  refine ⟨by decide +kernel, ?_⟩
  have log : entryLog twoFolders.store.folderList batch.updates =
      [.remove ("inbox", entryMail), .insert ("archive", entryMail)] := by decide +kernel
  refine (bucketing_preserves_iff_no_return twoFoldersEnv batch twoFolders ?_ ?_).mpr ?_ _ _
  · intro ev mem
    simp only [batch, List.mem_cons, List.not_mem_nil, or_false] at mem
    rcases mem with rfl | rfl
    · exact ⟨by decide, by decide +kernel⟩
    · exact ⟨by decide, by decide +kernel⟩
  · intro ev mem _
    simp only [batch, List.mem_cons, List.not_mem_nil, or_false] at mem
    rcases mem with rfl | rfl
    · exact entryEvent_loadable _ _
    · exact entryEvent_loadable _ _
  · rw [log]
    rintro folderId elementId ⟨last, removed⟩
    have isInbox : folderId = "inbox" ∧ elementId = entryMail := by simpa using removed
    obtain ⟨rfl, rfl⟩ := isInbox
    revert last
    decide

/-- A mail that leaves the inbox and comes back in one batch is lost. -/
theorem bucketing_loses_returning_mail :
    let batch : EntityUpdateBatch := ⟨"b1", "g1",
      [entryEvent "inboxEntries" .delete, entryEvent "inboxEntries" .create]⟩
    (∀ ev ∈ batch.updates, EntryEvent twoFolders.store.folderList ev ∧ Loadable twoFoldersEnv.backend ev) ∧
      ¬ (applyBatch twoFoldersEnv batch twoFolders).store.Holds "inbox" entryMail ∧
      (applyOneByOne twoFoldersEnv batch twoFolders).store.Holds "inbox" entryMail := by
  intro batch
  refine ⟨?_, by decide +kernel, by decide +kernel⟩
  intro ev mem
  simp only [batch, List.mem_cons, List.not_mem_nil, or_false] at mem
  rcases mem with rfl | rfl
  · exact ⟨⟨by decide, by decide +kernel⟩, entryEvent_loadable _ _⟩
  · exact ⟨⟨by decide, by decide +kernel⟩, entryEvent_loadable _ _⟩

end TutaBridge.Events
