import TutaBridge.Events.Bucketing
import TutaBridge.Std.Guarded

/-!
# The event cursor

`process` advances the cursor of a group after every batch, whatever became of
the batch. The next reconnect resumes behind the cursor, so a mail whose CREATE
was not applied by then is not delivered again. A run loses no mail exactly when
each of its batches either finds the mail and keeps it, or ends in a sync of the
folder that lists it.
-/

namespace TutaBridge.Events

open TutaBridge.Std Tuta Store Bridge Sync

variable {batch : EntityUpdateBatch}

/-- The stored cursor of the batch's group, in memory or on disk, is the batch. -/
def CursorAt (batch : EntityUpdateBatch) (world : World) : Prop :=
  world.lastBatchIds.get? batch.groupId = some batch.batchId ∨
    world.localStore.loadEventBusState.get? batch.groupId = some batch.batchId

/-- Every `MailSetEntry` CREATE of the batch whose mail is on the server has it
in its folder. `serverMail` is the mail an entry places, if the server has it. -/
def Delivered (serverMail : EntityUpdateEvent → Option String) (batch : EntityUpdateBatch)
    (world : World) : Prop :=
  ∀ ev ∈ batch.updates, isEntryCreate ev → ∀ mailEid, serverMail ev = some mailEid →
    ∃ target, folderByEntries world.store.folderList ev.instanceListId = some target ∧
      world.store.Holds target.id mailEid

/-- The create can get hold of its mail: from another folder, from the batch, or
from the server. -/
def Obtains (env : Env) (run : BatchRun) (ev : EntityUpdateEvent) (mailEid : String) : Prop :=
  (locate env run.world mailEid).isSome ∨ (run.pending.get? mailEid).isSome ∨
    ∃ id mail, (resolveMailSetEntry env ev run.world).1 = some id ∧
      env.backend.loadMail (resolveMailSetEntry env ev run.world).2.tick id.listId id.elementId =
        .ok (some mail)

/-- The `Mail` event deletes the mail, or is an UPDATE whose mail cannot be
resolved. -/
def Forgets (env : Env) (mailEid : String) (world : World) (ev : EntityUpdateEvent) : Prop :=
  ev.instanceId = mailEid ∧
    (ev.operation = .delete ∨ ev.operation = .update ∧ (resolveMail env ev world).1 = none)

/-- What a fallback sync of the folder lists, `none` when it syncs another folder
or the listing fails. -/
def fallbackListing (env : Env) (folders : List FolderInfo) (folderId : String) (world : World)
    (entriesListId : String) : Option (List Mail) :=
  (folderByEntries folders entriesListId).bind fun folder =>
    if folder.id = folderId then (listFolder env folder world).1.toOption else none

/-- The mail is in the folder already or some create of the batch obtains it, and
neither a `MailSetEntry` DELETE nor a `Mail` event of the batch takes it away. -/
def KeptByEvents (env : Env) (batch : EntityUpdateBatch) (world : World) (pair : String × String) : Prop :=
  let bucketed := bucketUpdates batch.updates
  let start := beginBatch env bucketed world
  let folders := batchFolders env batch world
  let deleted := bucketed.mailSetEntryDeletes.foldl (applyMailSetEntryDelete env folders)
    (applyCreates env batch world).world
  (members start.world pair ∨ Sometime (applyMailSetEntryCreate env folders)
        (fun run ev => entryPair folders ev = some pair ∧ Obtains env run ev pair.2)
        start bucketed.mailSetEntryCreates) ∧
    (∀ ev ∈ bucketed.mailSetEntryDeletes, entryPair folders ev ≠ some pair) ∧
    Guarded (applyMailEvent env) (fun world ev => ¬ Forgets env pair.2 world ev) deleted bucketed.mailEvents

/-- The last listing of the folder by the fallback syncs of the batch. -/
def lastListing (env : Env) (batch : EntityUpdateBatch) (world : World) (folderId : String) :
    Option (List Mail) :=
  let folders := batchFolders env batch world
  let updated := applyDeletes env batch world
  lastAnswer (fallbackSync env folders) (fallbackListing env folders folderId) updated
    (env.hashOrder updated.tick (applyCreates env batch world).fallbackFolders)

/-- Every CREATE of the batch whose mail is on the server names a known folder,
and the mail is kept by the events or, when the folder is synced at the end,
listed. -/
def CanApply (env : Env) (serverMail : EntityUpdateEvent → Option String) (world : World) :
    EventBusMessage → Prop
  | .entityUpdate batch =>
    ∀ ev ∈ batch.updates, isEntryCreate ev → ∀ mailEid, serverMail ev = some mailEid →
      ∃ target, folderByEntries (batchFolders env batch world) ev.instanceListId = some target ∧
        match lastListing env batch world target.id with
        | some mails => mailEid ∈ mails.filterMap Mail.elementId
        | none => KeptByEvents env batch world (target.id, mailEid)
  | _ => True

variable {env : Env} {folders : List FolderInfo}

/-! ## The creates -/

/-- A create puts its mail into its folder exactly when it obtains the mail. -/
theorem members_create (faithful : Faithful env.backend) {ev : EntityUpdateEvent}
    (faithfulEvent : FaithfulEvent env.backend ev) {run : BatchRun}
    (pendingFaithful : PendingFaithful run.pending) (pair : String × String) :
    members (applyMailSetEntryCreate env folders run ev).world pair ↔
      members run.world pair ∨ (entryPair folders ev = some pair ∧ Obtains env run ev pair.2) := by
  have paired : ∀ {at_ mailEid target}, MailSetEntryId.deconstruct ev.instanceId =
      .ok (at_, mailEid) → folderByEntries folders ev.instanceListId = some target →
      (entryPair folders ev = some pair ↔ pair.1 = target.id ∧ pair.2 = mailEid) := by
    intro at_ mailEid target decoded known
    simp only [entryPair, decoded, known, Option.map_some, Option.some.injEq]
    rw [Prod.ext_iff]
    exact ⟨fun equal => ⟨equal.1.symm, equal.2.symm⟩, fun equal => ⟨equal.1.symm, equal.2.symm⟩⟩
  have unchanged : ∀ {at_ mailEid target} {after : World}, MailSetEntryId.deconstruct
      ev.instanceId = .ok (at_, mailEid) → folderByEntries folders ev.instanceListId = some target →
      after.store = run.world.store → (pair.2 = mailEid → ¬ Obtains env run ev pair.2) →
      (members after pair ↔
        members run.world pair ∨ (entryPair folders ev = some pair ∧ Obtains env run ev pair.2)) := by
    intro at_ mailEid target after decoded known sameStore notObtained
    rw [paired decoded known, members, sameStore]
    exact ⟨.inl, fun either => either.elim id fun both => absurd both.2 (notObtained both.1.2)⟩
  have outcome := createOutcome env folders run ev
  generalize applyMailSetEntryCreate env folders run ev = after at outcome ⊢
  cases outcome with
  | unplaced unknown =>
    have noPair : entryPair folders ev ≠ some pair := by
      intro found
      obtain ⟨at_, target, decoded, known, _⟩ := entryPair_eq_some_imp found
      exact unknown at_ pair.2 target decoded known
    simp [noPair, BatchRun.fallBack, members]
  | @cached _ mailEid _ target stored decoded known located =>
    have identified := (MailStore.findMailAnywhere_eq_some_imp located).2
    rw [paired decoded known, members, holds_assignUidAndUpsert env target mailEid stored identified, or_comm]
    refine or_congr Iff.rfl ⟨fun equal => ⟨equal, .inl ?_⟩, And.left⟩
    rw [equal.2, located, Option.isSome_some]
  | @inlined _ mailEid target pending decoded known missing held =>
    rw [paired decoded known, members,
      holds_applyInlineCreate env target (pendingFaithful mailEid pending held), or_comm]
    refine or_congr Iff.rfl ⟨fun equal => ⟨equal, .inr (.inl ?_)⟩, And.left⟩
    rw [equal.2, held, Option.isSome_some]
  | @loaded _ mailEid target id mail decoded known missing notInlined entry answered =>
    have sameId := resolveMailSetEntry_elementId faithfulEvent entry decoded
    have identified := faithful.loaded _ _ _ _ answered
    rw [paired decoded known, members, holds_assignUidAndUpsert env target _ (newlyStored mail) identified,
      (requested_stores env ev run.world).1, or_comm, sameId]
    exact or_congr Iff.rfl ⟨fun equal => ⟨equal, .inr (.inr ⟨id, mail, entry, answered⟩)⟩, And.left⟩
  | @unresolved _ mailEid _ decoded known missing notInlined noEntry =>
    refine unchanged decoded known (resolveMailSetEntry_stores env ev run.world).1 ?_
    rintro rfl
    simp [Obtains, missing, notInlined, noEntry]
  | @gone _ mailEid _ _ decoded known missing notInlined entry answered =>
    refine unchanged decoded known (requested_stores env ev run.world).1 ?_
    rintro rfl
    simp [Obtains, missing, notInlined, entry, answered]
  | @failed _ mailEid _ _ _ decoded known missing notInlined entry answered =>
    refine unchanged decoded known (requested_stores env ev run.world).1 ?_
    rintro rfl
    simp [Obtains, missing, notInlined, entry, answered]

/-- The create loop works on the folder list it was given. -/
theorem folderList_create (env : Env) (folders : List FolderInfo) (run : BatchRun) (ev : EntityUpdateEvent) :
    (applyMailSetEntryCreate env folders run ev).world.store.folderList = run.world.store.folderList := by
  have outcome := createOutcome env folders run ev
  generalize applyMailSetEntryCreate env folders run ev = after at outcome ⊢
  cases outcome with
  | unplaced => rfl
  | cached => exact folderList_assignUidAndUpsert _ _ _ _ _
  | inlined =>
    simp only [applyInlineCreate, folderList_assignUidAndUpsert]
    split
    · rfl
    · simp [persistInlineBody]
  | unresolved =>
    exact congrArg MailStore.folderList (resolveMailSetEntry_stores env ev run.world).1
  | loaded =>
    rw [folderList_assignUidAndUpsert]
    exact congrArg MailStore.folderList (requested_stores env ev run.world).1
  | gone => exact congrArg MailStore.folderList (requested_stores env ev run.world).1
  | failed => exact congrArg MailStore.folderList (requested_stores env ev run.world).1

/-- The pool of inlined mails only loses mails to the creates. -/
theorem pendingFaithful_create {run : BatchRun} (ev : EntityUpdateEvent)
    (pendingFaithful : PendingFaithful run.pending) :
    PendingFaithful (applyMailSetEntryCreate env folders run ev).pending := by
  have outcome := createOutcome env folders run ev
  generalize applyMailSetEntryCreate env folders run ev = after at outcome ⊢
  cases outcome with
  | inlined => exact pendingFaithful.erase _
  | unplaced | cached | unresolved | loaded | gone | failed => exact pendingFaithful

/-! ## Deletes, mail events and fallback syncs -/

theorem mailEvent_facts (ev : EntityUpdateEvent) (world : World) (pair : String × String) :
    (members (applyMailEvent env world ev) pair ↔ members world pair ∧ ¬ Forgets env pair.2 world ev) ∧
      (applyMailEvent env world ev).store.folderList = world.store.folderList := by
  obtain ⟨sameStore, _⟩ := resolveMail_stores env ev world
  have forgotten : ∀ start : World, start.store = world.store →
      (members (forgetMail env ev.instanceId start) pair ↔ members world pair ∧ ¬ ev.instanceId = pair.2) ∧
        (forgetMail env ev.instanceId start).store.folderList = world.store.folderList := by
    intro start same
    refine ⟨?_, ?_⟩
    · rw [members, forgetMail_store, MailStore.holds_removeMailEverywhere, same, and_comm, ne_eq,
        eq_comm]
      rfl
    · rw [forgetMail_store, same, MailStore.folderList_removeMailEverywhere]
  unfold applyMailEvent
  cases operation : ev.operation with
  | delete => simpa [Forgets, operation] using forgotten world rfl
  | update =>
    dsimp only
    cases resolved : (resolveMail env ev world).1 with
    | none => simpa [Forgets, operation, resolved] using forgotten _ sameStore
    | some mail =>
      have kept : ¬ Forgets env pair.2 world ev := by simp [Forgets, operation, resolved]
      refine ⟨?_, ?_⟩
      · simp only [members, refreshMail, World.write_store, World.mapStore_store, sameStore,
          MailStore.holds_refreshMailInPlace, kept, not_false_eq_true, and_true]
      · simp only [refreshMail, World.write_store, World.mapStore_store, sameStore,
          MailStore.folderList_refreshMailInPlace]
  | create => simp [Forgets, operation]
  | other => simp [Forgets, operation]

/-- Whatever the disk does, a sync leaves in its folder what was listed. -/
theorem fallback_facts (entriesListId : String) (world : World) (pair : String × String) :
    (members (fallbackSync env folders world entriesListId) pair ↔
        ((fallbackListing env folders pair.1 world entriesListId).map fun mails =>
          pair.2 ∈ mails.filterMap Mail.elementId).getD (members world pair)) ∧
      (fallbackSync env folders world entriesListId).store.folderList = world.store.folderList := by
  unfold fallbackSync fallbackListing
  cases found : folderByEntries folders entriesListId with
  | none => simp
  | some folder =>
    cases listed : (listFolder env folder world).1 with
    | error message =>
      obtain ⟨sameStore, _⟩ := syncFolder_of_error listed
      simp [members, sameStore, listed, Except.toOption]
    | ok mails =>
      obtain ⟨uids, synced⟩ := exists_syncFolder_store listed
      refine ⟨?_, by rw [synced, MailStore.folderList_setFolder]⟩
      simp only [members, MailStore.Holds, synced, MailStore.getFolder_setFolder]
      by_cases same : folder.id = pair.1
      · simp [same, listed, Except.toOption]
      · simp [same, Ne.symm same]

/-! ## A batch -/

/-- The folder list a batch works on is still there at its end. -/
theorem folderList_applyBatch (env : Env) (batch : EntityUpdateBatch) (world : World) :
    (applyBatch env batch world).store.folderList = batchFolders env batch world := by
  have created : (applyCreates env batch world).world.store.folderList =
      batchFolders env batch world := by
    unfold applyCreates
    refine List.foldlRecOn (motive := fun run : BatchRun => run.world.store.folderList =
      batchFolders env batch world) _ _ rfl ?_
    intro run same ev _
    exact (folderList_create env _ run ev).trans same
  have updated : (applyDeletes env batch world).store.folderList = batchFolders env batch world := by
    unfold applyDeletes
    refine List.foldlRecOn (motive := fun after : World => after.store.folderList =
      batchFolders env batch world) _ _ ?_ ?_
    · refine List.foldlRecOn (motive := fun after : World => after.store.folderList =
        batchFolders env batch world) _ _ created ?_
      intro after same ev _
      exact (delete_facts ev after ("", "")).2.trans same
    · intro after same ev _
      exact (mailEvent_facts ev after ("", "")).2.trans same
  unfold applyBatch
  refine List.foldlRecOn (motive := fun after : World => after.store.folderList =
    batchFolders env batch world) _ _ updated ?_
  intro after same entriesListId _
  exact (fallback_facts entriesListId after ("", "")).2.trans same

/-- The deletes and mail events of a batch take mails away and add none. -/
theorem members_events (deletes mailEvents : List EntityUpdateEvent) (world : World) (pair : String × String) :
    members (mailEvents.foldl (applyMailEvent env) (deletes.foldl (applyMailSetEntryDelete env folders) world)) pair ↔
      members world pair ∧ (∀ ev ∈ deletes, entryPair folders ev ≠ some pair) ∧
        Guarded (applyMailEvent env) (fun world ev => ¬ Forgets env pair.2 world ev)
          (deletes.foldl (applyMailSetEntryDelete env folders) world) mailEvents := by
  rw [Guarded.foldl_iff (fun after : World => members after pair)
    (fun after ev => (mailEvent_facts ev after pair).1),
    Guarded.foldl_iff (fun after : World => members after pair)
      (fun after ev => (delete_facts ev after pair).1), Guarded.const_iff, and_assoc]

theorem pendingFaithful_beginBatch
    (faithfulEvents : ∀ ev ∈ batch.updates, FaithfulEvent env.backend ev) (world : World) :
    PendingFaithful (beginBatch env (bucketUpdates batch.updates) world).pending := by
  simp only [beginBatch, bucketUpdates_eq]
  exact (predecryptMailCreates_facts (fun ev mem => faithfulEvents ev (List.mem_of_mem_filter mem)) _).1

/-- The creates of a batch add the mails they obtain and take none away. -/
theorem members_creates (faithful : Faithful env.backend) {creates : List EntityUpdateEvent}
    (faithfulEvents : ∀ ev ∈ creates, FaithfulEvent env.backend ev) {start : BatchRun}
    (pendingFaithful : PendingFaithful start.pending) (pair : String × String) :
    members (creates.foldl (applyMailSetEntryCreate env folders) start).world pair ↔ members start.world pair ∨
        Sometime (applyMailSetEntryCreate env folders)
          (fun run ev => entryPair folders ev = some pair ∧ Obtains env run ev pair.2) start creates :=
  Sometime.foldl_iff (fun run : BatchRun => members run.world pair)
    (fun run => PendingFaithful run.pending) (fun ev => FaithfulEvent env.backend ev)
    (fun _ ev _ pending => pendingFaithful_create ev pending)
    (fun _ _ faithfulEvent pending => members_create faithful faithfulEvent pending pair)
    faithfulEvents pendingFaithful

section

variable (faithful : Faithful env.backend)
    (faithfulEvents : ∀ ev ∈ batch.updates, FaithfulEvent env.backend ev) (world : World)
    (pair : String × String)

include faithful faithfulEvents world pair

/-- After the loops over the events, a folder holds what they kept. -/
theorem members_applyDeletes :
    members (applyDeletes env batch world) pair ↔ KeptByEvents env batch world pair := by
  have faithfulCreates : ∀ ev ∈ (bucketUpdates batch.updates).mailSetEntryCreates,
      FaithfulEvent env.backend ev := by
    intro ev mem
    rw [bucketUpdates_eq] at mem
    exact faithfulEvents ev (List.mem_of_mem_filter mem)
  unfold applyDeletes KeptByEvents
  dsimp only
  rw [members_events, applyCreates, members_creates faithful faithfulCreates
    (pendingFaithful_beginBatch faithfulEvents world)]
  rfl

/-- After a batch, a folder holds what its last sync listed, or else what the
events kept. -/
theorem members_applyBatch : members (applyBatch env batch world) pair ↔
      match lastListing env batch world pair.1 with
      | some mails => pair.2 ∈ mails.filterMap Mail.elementId
      | none => KeptByEvents env batch world pair := by
  unfold applyBatch lastListing
  dsimp only
  rw [foldl_iff_lastAnswer (fun after : World => members after pair)
    (fun mails : List Mail => pair.2 ∈ mails.filterMap Mail.elementId)
    (fun after entriesListId => (fallback_facts entriesListId after pair).1),
    members_applyDeletes faithful faithfulEvents]
  split <;> simp_all

end

/-! ## A run -/

theorem advanceCursor_facts (env : Env) (batch : EntityUpdateBatch) (world : World) :
    (advanceCursor env batch world).store = world.store ∧ (advanceCursor env batch world).lastBatchIds =
        world.lastBatchIds.set batch.groupId batch.batchId := by
  unfold advanceCursor World.write World.call
  dsimp only
  split <;> exact ⟨rfl, rfl⟩

/-- The cursor is advanced whatever became of the batch. -/
theorem cursorAt_process (env : Env) (batch : EntityUpdateBatch) (world : World) :
    CursorAt batch (process env world (.entityUpdate batch)) := by
  refine .inl ?_
  rw [process, (advanceCursor_facts env batch _).2, Dict.get?_set, if_pos rfl]

/-- A batch is delivered exactly when it can be applied. -/
theorem delivered_process_iff (faithful : Faithful env.backend)
    (faithfulEvents : ∀ ev ∈ batch.updates, FaithfulEvent env.backend ev)
    (serverMail : EntityUpdateEvent → Option String) (world : World) :
    Delivered serverMail batch (process env world (.entityUpdate batch)) ↔
      CanApply env serverMail world (.entityUpdate batch) := by
  have sameStore : (process env world (.entityUpdate batch)).store =
      (applyBatch env batch world).store := (advanceCursor_facts env batch _).1
  simp only [Delivered, CanApply, sameStore, folderList_applyBatch]
  have held : ∀ folderId mailEid, (applyBatch env batch world).store.Holds folderId mailEid ↔
      match lastListing env batch world folderId with
      | some mails => mailEid ∈ mails.filterMap Mail.elementId
      | none => KeptByEvents env batch world (folderId, mailEid) :=
    fun folderId mailEid => members_applyBatch faithful faithfulEvents world (folderId, mailEid)
  simp only [held]

/-- The cursor passes only batches whose mails were delivered exactly in the runs
whose every batch can be applied in the state it meets. -/
theorem cursor_passes_delivered_iff (env : Env) (serverMail : EntityUpdateEvent → Option String)
    (world : World) (run : List EventBusMessage) (faithful : Faithful env.backend)
    (faithfulEvents : ∀ batch, .entityUpdate batch ∈ run →
      ∀ ev ∈ batch.updates, FaithfulEvent env.backend ev) :
    (∀ first batch second, run = first ++ .entityUpdate batch :: second →
        let after := (first ++ [.entityUpdate batch]).foldl (process env) world
        CursorAt batch after → Delivered serverMail batch after) ↔
      Guarded (process env) (CanApply env serverMail) world run := by
  rw [Guarded.iff_forall_split]
  constructor
  · intro sound first msg second split
    cases msg with
    | entityUpdate batch =>
      have delivered := sound first batch second split
      simp only [List.foldl_append, List.foldl_cons, List.foldl_nil] at delivered
      exact (delivered_process_iff faithful (faithfulEvents batch (by simp [split])) serverMail _).mp
        (delivered (cursorAt_process env batch _))
    | _ => trivial
  · intro canApply first batch second split
    dsimp only
    intro _
    subst split
    rw [List.foldl_append]
    exact (delivered_process_iff faithful (faithfulEvents batch (by simp)) serverMail _).mpr
      (canApply first _ second rfl)

/-- A bridge that knows an empty inbox. -/
def emptyInbox : World := sampleWorld [sampleFolder "inbox" "entries"] []

/-- A batch that places the fixtures' mail in the inbox. -/
def arrival : EntityUpdateBatch := ⟨"b1", "mailGroup", [entryEvent "entries" .create]⟩

/-- The server has every mail that an entry of the fixtures places. -/
def sampleServerMail (_ : EntityUpdateEvent) : Option String := some entryMail

/-- The server cannot be reached, neither for the mail nor for the folder. The
cursor moves behind the batch all the same. -/
theorem cursor_passes_undelivered_mail :
    ¬ ∀ (env : Env) (serverMail : EntityUpdateEvent → Option String) (world : World)
      (run : List EventBusMessage), Faithful env.backend →
      (∀ batch, .entityUpdate batch ∈ run → ∀ ev ∈ batch.updates, FaithfulEvent env.backend ev) →
      ∀ first batch second, run = first ++ .entityUpdate batch :: second →
        let after := (first ++ [.entityUpdate batch]).foldl (process env) world
        CursorAt batch after → Delivered serverMail batch after := by
  intro sound
  have delivered := sound (quietEnv (offlineBackend [])) sampleServerMail emptyInbox [.entityUpdate arrival]
    { loaded := fun _ _ _ _ answered => nomatch answered
      listed := fun _ _ _ answered => nomatch answered }
    (fun _ _ _ _ =>
      { mail := fun _ _ _ _ answered => nomatch answered
        entry := fun _ _ _ _ _ _ answered => nomatch answered })
    [] arrival [] rfl (cursorAt_process _ _ _) (entryEvent "entries" .create) List.mem_cons_self
    rfl entryMail rfl
  obtain ⟨target, known, held⟩ := delivered
  have nothing : ∀ folder ∈ (process (quietEnv (offlineBackend [])) emptyInbox
      (.entityUpdate arrival)).store.folderList, ¬ (process (quietEnv (offlineBackend []))
        emptyInbox (.entityUpdate arrival)).store.Holds folder.id entryMail := by decide +kernel
  exact nothing target (List.mem_of_mem_filter (List.mem_of_getLast? known)) held

/-- With the server reachable, the same batch is delivered. -/
theorem cursor_passes_delivered_arrival : Delivered sampleServerMail arrival
      (process (quietEnv (listingBackend [] [sampleMail entryMail])) emptyInbox (.entityUpdate arrival)) := by
  have canApply : CanApply (quietEnv (listingBackend [] [sampleMail entryMail])) sampleServerMail
      emptyInbox (.entityUpdate arrival) := by
    intro ev inBatch _ mailEid onServer
    obtain rfl : ev = entryEvent "entries" .create := by simpa [arrival] using inBatch
    cases onServer
    have notListed : lastListing (quietEnv (listingBackend [] [sampleMail entryMail])) arrival
        emptyInbox "inbox" = none := by decide +kernel
    have paired : entryPair [sampleFolder "inbox" "entries"] (entryEvent "entries" .create) =
        some ("inbox", entryMail) := by decide +kernel
    refine ⟨sampleFolder "inbox" "entries", by decide +kernel, ?_⟩
    rw [show (sampleFolder "inbox" "entries").id = "inbox" from rfl, notListed]
    refine ⟨.inr (.inl ⟨paired, .inr (.inr ⟨⟨"list1", entryMail⟩, sampleMail entryMail, rfl, ?_⟩)⟩),
      (fun _ deleted => nomatch deleted), trivial⟩
    rfl
  exact (cursor_passes_delivered_iff (quietEnv (listingBackend [] [sampleMail entryMail]))
    sampleServerMail emptyInbox [.entityUpdate arrival]
    (listingBackend_faithful (by decide))
    (fun batch mem ev inBatch => by
      obtain rfl : batch = arrival := by simpa using mem
      obtain rfl : ev = entryEvent "entries" .create := by simpa [arrival] using inBatch
      exact entryEvent_faithful _ _ _ _)).mpr ⟨canApply, trivial⟩ [] arrival [] rfl
    (cursorAt_process _ _ _)

end TutaBridge.Events
