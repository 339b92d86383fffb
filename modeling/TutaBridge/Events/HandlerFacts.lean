import TutaBridge.Events.Handler
import TutaBridge.Sync.FolderFacts

/-!
# What the handler's steps do

One spec for each step of the handler on a working disk, in terms of the two
stores. The results about batches and runs use these and never unfold a step.
-/

namespace TutaBridge.Events

open TutaBridge.Std Tuta Store Bridge Sync

variable {env : Env}

/-! ## The placement of a mail -/

/-- The UID the next mail of a folder is stamped with, `next as u32`. -/
def nextStamp (world : World) (folderId : String) : Nat := world.localStore.nextUid folderId % 2 ^ 32

theorem assignUidAndUpsert_store (diskOk : env.DiskOk) (target : FolderInfo) (mailEid : String)
    (stored : StoredMail) (world : World) :
    (assignUidAndUpsert env target mailEid stored world).store = world.store.upsertMailInFolder target.id
        { stored with uid := nextStamp world target.id } := by
  simp [assignUidAndUpsert, World.call_ok diskOk, LocalStore.allocateFolderUids,
    LocalStore.assignUids, nextStamp]

theorem assignUidAndUpsert_localStore (diskOk : env.DiskOk) (target : FolderInfo) (mailEid : String)
    (stored : StoredMail) (world : World) : (assignUidAndUpsert env target mailEid stored world).localStore =
      ((world.localStore.allocateFolderUids target.id [mailEid]).2).upsertMailMetadata
        (mailToMetadata env.codec stored.mail target.id (nextStamp world target.id)) := by
  simp [assignUidAndUpsert, World.call_ok diskOk, World.write_localStore diskOk,
    LocalStore.allocateFolderUids, LocalStore.assignUids, nextStamp]

/-- A placement advances the counter of its folder by one, and no other. -/
theorem nextUid_assignUidAndUpsert (diskOk : env.DiskOk) (target : FolderInfo) (mailEid : String)
    (stored : StoredMail) (world : World) (folderId : String) :
    (assignUidAndUpsert env target mailEid stored world).localStore.nextUid folderId =
      world.localStore.nextUid folderId + if folderId = target.id then 1 else 0 := by
  rw [assignUidAndUpsert_localStore diskOk]
  change ((world.localStore.allocateFolderUids target.id [mailEid]).2).nextUid folderId = _
  rw [LocalStore.nextUid_allocateFolderUids]
  by_cases same : folderId = target.id <;> simp [same]

/-- Whether or not the disk works, the placed mail is in memory. -/
theorem exists_assignUidAndUpsert_store (env : Env) (target : FolderInfo) (mailEid : String)
    (stored : StoredMail) (world : World) :
    ∃ uid, (assignUidAndUpsert env target mailEid stored world).store =
      world.store.upsertMailInFolder target.id { stored with uid := uid } := by
  have written : ∀ effect, (World.write env effect
      (world.call env (LocalStore.allocateFolderUids target.id [mailEid])).2).store = world.store :=
    fun effect => (World.write_store effect _).trans (World.call_store _ _)
  exact ⟨_, congrArg (MailStore.upsertMailInFolder target.id _) (written _)⟩

theorem holds_assignUidAndUpsert (env : Env) (target : FolderInfo) (mailEid : String)
    (stored : StoredMail) {elementId : String} (identified : stored.elementId = some elementId)
    (world : World) (folderId id : String) :
    (assignUidAndUpsert env target mailEid stored world).store.Holds folderId id ↔
      (folderId = target.id ∧ id = elementId) ∨ world.store.Holds folderId id := by
  obtain ⟨uid, store⟩ := exists_assignUidAndUpsert_store env target mailEid stored world
  rw [store]
  exact MailStore.holds_upsertMailInFolder { stored with uid := uid } identified target.id folderId
    id world.store

@[simp] theorem folderList_assignUidAndUpsert (env : Env) (target : FolderInfo) (mailEid : String)
    (stored : StoredMail) (world : World) : (assignUidAndUpsert env target mailEid stored world).store.folderList =
      world.store.folderList := by
  obtain ⟨uid, store⟩ := exists_assignUidAndUpsert_store env target mailEid stored world
  rw [store, MailStore.folderList_upsertMailInFolder]

/-- Persisting an inlined body writes the body file, the flag of the row and the
body cache. -/
theorem persistInlineBody_facts (diskOk : env.DiskOk) (mailEid : String)
    (details : Option MailDetails) (eml : String) (world : World) :
    (∀ folderId, (persistInlineBody env mailEid details eml world).store.getFolder folderId =
        world.store.getFolder folderId) ∧
      (persistInlineBody env mailEid details eml world).localStore =
        (world.localStore.writeEml mailEid eml).markHasDetails mailEid := by
  constructor
  · intro folderId
    simp only [persistInlineBody, World.mapStore_store, World.writeAll_store]
    rfl
  · simp [persistInlineBody, World.writeAll_localStore diskOk]

/-- An inlined create places its mail, with or without a body. -/
theorem holds_applyInlineCreate (env : Env) (target : FolderInfo) {mailEid : String}
    {pending : PendingMail} (identified : pending.mail.elementId = some mailEid) (world : World)
    (folderId id : String) : (applyInlineCreate env target mailEid pending world).store.Holds folderId id ↔
      (folderId = target.id ∧ id = mailEid) ∨ world.store.Holds folderId id := by
  unfold applyInlineCreate
  dsimp only
  rw [holds_assignUidAndUpsert env target mailEid
    { mail := pending.mail, bodyLoaded := _, uid := 0, attachmentsPending := false } identified]
  split
  · exact Iff.rfl
  · simp only [persistInlineBody, World.mapStore_store, World.writeAll_store]
    exact Iff.rfl

/-! ## The buckets -/

def isEntryCreate (ev : EntityUpdateEvent) : Bool :=
  ev.application = tutanotaApp ∧ ev.typeId = mailSetEntryTypeId ∧ ev.operation = .create

def isEntryDelete (ev : EntityUpdateEvent) : Bool :=
  ev.application = tutanotaApp ∧ ev.typeId = mailSetEntryTypeId ∧ ev.operation = .delete

def isMailCreate (ev : EntityUpdateEvent) : Bool :=
  ev.application = tutanotaApp ∧ ev.typeId = mailTypeId ∧ ev.operation = .create

def isMailEvent (ev : EntityUpdateEvent) : Bool :=
  ev.application = tutanotaApp ∧ ev.typeId = mailTypeId ∧ ev.operation ≠ .create

def isMailSetEvent (ev : EntityUpdateEvent) : Bool :=
  ev.application = tutanotaApp ∧ ev.typeId = mailSetTypeId

/-- Each bucket holds the events of its kind, in batch order. -/
theorem bucketUpdates_eq (updates : List EntityUpdateEvent) : bucketUpdates updates =
      { mailSetEntryCreates := updates.filter isEntryCreate
        mailSetEntryDeletes := updates.filter isEntryDelete
        mailCreates := updates.filter isMailCreate
        mailEvents := updates.filter isMailEvent
        folderListDirty := updates.any isMailSetEvent } := by
  induction updates using List.reverseRecOn with
  | nil => rfl
  | append_singleton first ev ih =>
    rw [bucketUpdates, List.foldl_append, ← bucketUpdates, ih]
    simp only [List.foldl_cons, List.foldl_nil, bucket, List.filter_append, List.any_append]
    by_cases app : ev.application = tutanotaApp
    · by_cases isEntry : ev.typeId = mailSetEntryTypeId
      · cases op : ev.operation <;>
          simp [isEntryCreate, isEntryDelete, isMailCreate, isMailEvent, isMailSetEvent, app,
            isEntry, op, mailSetEntryTypeId, mailTypeId, mailSetTypeId]
      · by_cases isMail : ev.typeId = mailTypeId
        · cases op : ev.operation <;>
            simp [isEntryCreate, isEntryDelete, isMailCreate, isMailEvent, isMailSetEvent, app,
              isMail, op, mailSetEntryTypeId, mailTypeId, mailSetTypeId]
        · by_cases isSet : ev.typeId = mailSetTypeId <;>
            simp_all [isEntryCreate, isEntryDelete, isMailCreate, isMailEvent, isMailSetEvent]
    · simp [isEntryCreate, isEntryDelete, isMailCreate, isMailEvent, isMailSetEvent, app]

/-! ## What a create can do -/

theorem resolveMailSetEntry_stores (env : Env) (ev : EntityUpdateEvent) (world : World) :
    (resolveMailSetEntry env ev world).2.store = world.store ∧
      (resolveMailSetEntry env ev world).2.localStore = world.localStore := by
  unfold resolveMailSetEntry
  split
  · exact ⟨rfl, rfl⟩
  · dsimp only
    split <;> exact ⟨rfl, rfl⟩

/-- The state after the mail of an entry was requested. -/
def requested (env : Env) (ev : EntityUpdateEvent) (world : World) : World :=
  { (resolveMailSetEntry env ev world).2 with
    tick := (resolveMailSetEntry env ev world).2.tick + 1 }

theorem requested_stores (env : Env) (ev : EntityUpdateEvent) (world : World) :
    (requested env ev world).store = world.store ∧ (requested env ev world).localStore = world.localStore :=
  resolveMailSetEntry_stores env ev world

/-- A mail as it enters a folder, before its body is known. -/
def newlyStored (mail : Mail) : StoredMail :=
  { mail := mail, bodyLoaded := false, uid := 0, attachmentsPending := false }

/-- Everything a `MailSetEntry` CREATE can do to the state of its batch. -/
inductive CreateOutcome (env : Env) (folders : List FolderInfo) (run : BatchRun)
    (ev : EntityUpdateEvent) : BatchRun → Prop where
  /-- The id does not decode, or its folder is not in the list. -/
  | unplaced (unknown : ∀ at_ mailEid target, MailSetEntryId.deconstruct ev.instanceId =
        .ok (at_, mailEid) → folderByEntries folders ev.instanceListId ≠ some target) :
      CreateOutcome env folders run ev (run.fallBack ev)
  /-- The mail is cloned from a folder that has it. -/
  | cached {at_ : Nat} {mailEid source : String} {target : FolderInfo} {stored : StoredMail}
      (decoded : MailSetEntryId.deconstruct ev.instanceId = .ok (at_, mailEid))
      (known : folderByEntries folders ev.instanceListId = some target)
      (located : locate env run.world mailEid = some (source, stored)) :
      CreateOutcome env folders run ev
        { run with world := assignUidAndUpsert env target mailEid stored run.world }
  /-- The mail came inlined with the batch. -/
  | inlined {at_ : Nat} {mailEid : String} {target : FolderInfo} {pending : PendingMail}
      (decoded : MailSetEntryId.deconstruct ev.instanceId = .ok (at_, mailEid))
      (known : folderByEntries folders ev.instanceListId = some target)
      (missing : locate env run.world mailEid = none)
      (held : run.pending.get? mailEid = some pending) :
      CreateOutcome env folders run ev
        { run with
          world := applyInlineCreate env target mailEid pending run.world
          pending := run.pending.erase mailEid }
  /-- The mail is neither cached nor inlined, and the event does not tell which
  mail to load. -/
  | unresolved {at_ : Nat} {mailEid : String} {target : FolderInfo}
      (decoded : MailSetEntryId.deconstruct ev.instanceId = .ok (at_, mailEid))
      (known : folderByEntries folders ev.instanceListId = some target)
      (missing : locate env run.world mailEid = none)
      (notInlined : run.pending.get? mailEid = none)
      (noEntry : (resolveMailSetEntry env ev run.world).1 = none) :
      CreateOutcome env folders run ev
        ({ run with world := (resolveMailSetEntry env ev run.world).2 }.fallBack ev)
  /-- The mail was loaded. -/
  | loaded {at_ : Nat} {mailEid : String} {target : FolderInfo} {id : IdTuple} {mail : Mail}
      (decoded : MailSetEntryId.deconstruct ev.instanceId = .ok (at_, mailEid))
      (known : folderByEntries folders ev.instanceListId = some target)
      (missing : locate env run.world mailEid = none)
      (notInlined : run.pending.get? mailEid = none)
      (entry : (resolveMailSetEntry env ev run.world).1 = some id)
      (answered : env.backend.loadMail (resolveMailSetEntry env ev run.world).2.tick id.listId
        id.elementId = .ok (some mail)) :
      CreateOutcome env folders run ev
        { run with
          world := assignUidAndUpsert env target id.elementId (newlyStored mail)
            (requested env ev run.world) }
  /-- The server says the mail is gone. -/
  | gone {at_ : Nat} {mailEid : String} {target : FolderInfo} {id : IdTuple}
      (decoded : MailSetEntryId.deconstruct ev.instanceId = .ok (at_, mailEid))
      (known : folderByEntries folders ev.instanceListId = some target)
      (missing : locate env run.world mailEid = none)
      (notInlined : run.pending.get? mailEid = none)
      (entry : (resolveMailSetEntry env ev run.world).1 = some id)
      (answered : env.backend.loadMail (resolveMailSetEntry env ev run.world).2.tick id.listId
        id.elementId = .ok none) :
      CreateOutcome env folders run ev
        { run with world := requested env ev run.world }
  /-- The request failed. -/
  | failed {at_ : Nat} {mailEid message : String} {target : FolderInfo} {id : IdTuple}
      (decoded : MailSetEntryId.deconstruct ev.instanceId = .ok (at_, mailEid))
      (known : folderByEntries folders ev.instanceListId = some target)
      (missing : locate env run.world mailEid = none)
      (notInlined : run.pending.get? mailEid = none)
      (entry : (resolveMailSetEntry env ev run.world).1 = some id)
      (answered : env.backend.loadMail (resolveMailSetEntry env ev run.world).2.tick id.listId
        id.elementId = .error message) :
      CreateOutcome env folders run ev ({ run with world := requested env ev run.world }.fallBack ev)

theorem createOutcome (env : Env) (folders : List FolderInfo) (run : BatchRun) (ev : EntityUpdateEvent) :
    CreateOutcome env folders run ev (applyMailSetEntryCreate env folders run ev) := by
  unfold applyMailSetEntryCreate
  split
  next undecoded => exact .unplaced (by simp [undecoded])
  next at_ mailEid decoded =>
    split
    next unknown => exact .unplaced (by simp [unknown])
    next target known =>
      split
      next source stored located => exact .cached decoded known located
      next missing =>
        split
        next pending held => exact .inlined decoded known missing held
        next notInlined =>
          unfold applyMissedCreate
          dsimp only
          split
          next noEntry => exact .unresolved decoded known missing notInlined noEntry
          next id entry =>
            split
            next mail answered => exact .loaded decoded known missing notInlined entry answered
            next answered => exact .gone decoded known missing notInlined entry answered
            next answered => exact .failed decoded known missing notInlined entry answered

/-! ## Deletes and mail events -/

theorem forgetMail_localStore (diskOk : env.DiskOk) (elementId : String) (world : World) :
    (forgetMail env elementId world).localStore =
      ((world.localStore.deleteMailRow elementId).deleteEml elementId).unindexBody elementId := by
  simp [forgetMail, World.deleteMail_localStore diskOk]

@[simp] theorem forgetMail_store (env : Env) (elementId : String) (world : World) :
    (forgetMail env elementId world).store = world.store.removeMailEverywhere elementId := by
  simp [forgetMail]

/-- Everything a `MailSetEntry` DELETE can do. -/
theorem deleteOutcome (env : Env) (folders : List FolderInfo) (world : World) (ev : EntityUpdateEvent) :
    let after := applyMailSetEntryDelete env folders world ev
    after = world ∨ ∃ at_ mailEid source, MailSetEntryId.deconstruct ev.instanceId = .ok (at_, mailEid) ∧
      folderByEntries folders ev.instanceListId = some source ∧
      let removed := world.mapStore fun store => (store.removeMailFromFolder source.id mailEid).2
      (removed.store.isMailAnywhere mailEid = true ∧ after = removed) ∨
        (removed.store.isMailAnywhere mailEid = false ∧ after = removed.deleteMail env mailEid) := by
  dsimp only
  unfold applyMailSetEntryDelete
  split
  · exact .inl rfl
  next at_ mailEid decoded =>
    split
    · exact .inl rfl
    next source known =>
      refine .inr ⟨at_, mailEid, source, decoded, known, ?_⟩
      dsimp only
      split
      next anywhere => exact .inl ⟨anywhere, rfl⟩
      next nowhere => exact .inr ⟨by simpa using nowhere, rfl⟩

theorem resolveMail_stores (env : Env) (ev : EntityUpdateEvent) (world : World) :
    (resolveMail env ev world).2.store = world.store ∧ (resolveMail env ev world).2.localStore = world.localStore := by
  have load : ∀ world : World, (loadUpdatedMail env ev world).2.store = world.store ∧
      (loadUpdatedMail env ev world).2.localStore = world.localStore := by
    intro world
    unfold loadUpdatedMail
    dsimp only
    split <;> exact ⟨rfl, rfl⟩
  unfold resolveMail
  split
  · exact load world
  · dsimp only
    split
    · exact ⟨rfl, rfl⟩
    · exact load _

/-- Everything a `Mail` UPDATE or DELETE can do. -/
theorem mailEventOutcome (env : Env) (world : World) (ev : EntityUpdateEvent) : applyMailEvent env world ev = world ∨
      (∃ start : World, start.store = world.store ∧ start.localStore = world.localStore ∧
        applyMailEvent env world ev = forgetMail env ev.instanceId start) ∨
      ∃ mail, (resolveMail env ev world).1 = some mail ∧ applyMailEvent env world ev =
          refreshMail env ev.instanceId mail (resolveMail env ev world).2 := by
  obtain ⟨sameStore, sameDisk⟩ := resolveMail_stores env ev world
  unfold applyMailEvent
  split
  · exact .inr (.inl ⟨world, rfl, rfl, rfl⟩)
  · dsimp only
    split
    next mail resolved => exact .inr (.inr ⟨mail, resolved, rfl⟩)
    next => exact .inr (.inl ⟨_, sameStore, sameDisk, rfl⟩)
  · exact .inl rfl

/-! ## The folder list -/

/-- Dropping folders takes their rows and the body files of those rows; the index
and the counters stay. -/
theorem dropFolder_facts (diskOk : env.DiskOk) (folderId : String) (world : World) :
    (dropFolder env world folderId).store = world.store ∧
      (∀ id, (dropFolder env world folderId).localStore.mails.find? id =
        (world.localStore.mails.find? id).filter fun row => row.folderId ≠ folderId) ∧
      (dropFolder env world folderId).localStore.syncState = world.localStore.syncState ∧
      (dropFolder env world folderId).localStore.mailFts = world.localStore.mailFts ∧
      ∀ id, (dropFolder env world folderId).localStore.emls.get? id =
        if ((world.localStore.mails.find? id).any fun row => row.folderId = folderId) = true
        then none else world.localStore.emls.get? id := by
  have loop : ∀ (ids : List String) (world : World),
      let after := ids.foldl (fun world id => world.write env (·.deleteEml id)) world
      after.store = world.store ∧ after.localStore.mails = world.localStore.mails ∧
        after.localStore.syncState = world.localStore.syncState ∧
        after.localStore.mailFts = world.localStore.mailFts ∧
        ∀ id, after.localStore.emls.get? id =
          if id ∈ ids then none else world.localStore.emls.get? id := by
    intro ids
    induction ids with
    | nil => intro world; simp
    | cons head rest ih =>
      intro world
      obtain ⟨store, mails, counters, fts, emls⟩ :=
        ih (world.write env (·.deleteEml head))
      rw [World.write_localStore diskOk] at mails counters fts emls
      refine ⟨store.trans (World.write_store _ _), mails, counters, fts, fun id => ?_⟩
      rw [List.foldl_cons, emls id]
      simp only [LocalStore.deleteEml, Dict.get?_erase, List.mem_cons]
      split <;> split <;> simp_all
  have dropped : dropFolder env world folderId =
      ((world.localStore.mails.rows.filter fun row => row.folderId = folderId).map
        MailMetadata.elementId).foldl (fun world id => world.write env (·.deleteEml id))
        { world with
          localStore := (world.localStore.deleteFolderMails folderId).2
          tick := world.tick + 1 } := by
    simp only [dropFolder, World.call_ok diskOk]
    rfl
  obtain ⟨store, mails, counters, fts, emls⟩ := loop
    ((world.localStore.mails.rows.filter fun row => row.folderId = folderId).map MailMetadata.elementId)
    { world with
      localStore := (world.localStore.deleteFolderMails folderId).2
      tick := world.tick + 1 }
  rw [dropped]
  refine ⟨store, fun id => ?_, counters, fts, fun id => ?_⟩
  · rw [mails]
    exact LocalStore.find?_deleteFolderMails folderId world.localStore id
  · rw [emls id]
    have listed : (id ∈ (world.localStore.mails.rows.filter fun row =>
        row.folderId = folderId).map MailMetadata.elementId) ↔
        ((world.localStore.mails.find? id).any fun row => row.folderId = folderId) = true := by
      simp only [List.mem_map, List.mem_filter, decide_eq_true_eq, Option.any_eq_true,
        Table.find?_eq_some_iff]
      constructor
      · rintro ⟨row, ⟨mem, inFolder⟩, rowKey⟩
        exact ⟨row, ⟨mem, rowKey⟩, inFolder⟩
      · rintro ⟨row, ⟨mem, rowKey⟩, inFolder⟩
        exact ⟨row, ⟨mem, inFolder⟩, rowKey⟩
    by_cases isListed : id ∈ (world.localStore.mails.rows.filter fun row =>
        row.folderId = folderId).map MailMetadata.elementId
    · rw [if_pos isListed, if_pos (listed.mp isListed)]
    · rw [if_neg isListed, if_neg fun any => isListed (listed.mpr any)]
      rfl

/-! ## Faithful answers -/

/-- What the server's answers promise: a loaded mail is the one asked for, and a
listed mail has an id. -/
structure Faithful (backend : MailBackend) : Prop where
  loaded : ∀ tick listId elementId mail, backend.loadMail tick listId elementId = .ok (some mail) →
    mail.elementId = some elementId
  listed : ∀ tick folder mails, backend.loadMailIdsForFolder tick folder = .ok mails →
    ∀ mail ∈ mails, mail.elementId.isSome

/-- What an event's inlined payload promises: it is the instance the event names,
and an entry's id encodes the mail it places. -/
structure FaithfulEvent (backend : MailBackend) (ev : EntityUpdateEvent) : Prop where
  mail : ∀ json tick mail, ev.inlined = some json →
    backend.decryptInlineMail tick json = .ok (some mail) → mail.elementId = some ev.instanceId
  entry : ∀ json tick entry at_ mailEid, ev.inlined = some json →
    backend.decryptInlineMailSetEntry tick json = .ok (some entry) →
    MailSetEntryId.deconstruct ev.instanceId = .ok (at_, mailEid) → entry.mail.elementId = mailEid

theorem resolveMailSetEntry_elementId {ev : EntityUpdateEvent}
    (faithful : FaithfulEvent env.backend ev) {world : World} {id : IdTuple} {at_ : Nat}
    {mailEid : String} (entry : (resolveMailSetEntry env ev world).1 = some id)
    (decoded : MailSetEntryId.deconstruct ev.instanceId = .ok (at_, mailEid)) : id.elementId = mailEid := by
  unfold resolveMailSetEntry at entry
  split at entry
  · cases entry
  next json inlined =>
    dsimp only at entry
    split at entry
    next decrypted answered =>
      cases entry
      exact faithful.entry json _ decrypted at_ mailEid inlined answered decoded
    next => cases entry

theorem resolveMail_elementId (faithful : Faithful env.backend) {ev : EntityUpdateEvent}
    (faithfulEvent : FaithfulEvent env.backend ev) {world : World} {mail : Mail}
    (resolved : (resolveMail env ev world).1 = some mail) : mail.elementId = some ev.instanceId := by
  have load : ∀ world : World, (loadUpdatedMail env ev world).1 = some mail →
      mail.elementId = some ev.instanceId := by
    intro world loaded
    unfold loadUpdatedMail at loaded
    dsimp only at loaded
    split at loaded
    next answer answered =>
      subst loaded
      exact faithful.loaded _ _ _ _ answered
    next => cases loaded
  unfold resolveMail at resolved
  split at resolved
  · exact load world resolved
  next json inlined =>
    dsimp only at resolved
    split at resolved
    next decrypted answered =>
      cases resolved
      exact faithfulEvent.mail json _ mail inlined answered
    next => exact load _ resolved

/-- Each pending mail is the mail it is filed under. -/
def PendingFaithful (pending : Dict String PendingMail) : Prop :=
  ∀ mailEid entry, pending.get? mailEid = some entry → entry.mail.elementId = some mailEid

theorem PendingFaithful.erase {pending : Dict String PendingMail} (faithful : PendingFaithful pending)
    (used : String) : PendingFaithful (pending.erase used) := by
  intro mailEid entry found
  rw [Dict.get?_erase] at found
  split at found
  · cases found
  · exact faithful mailEid entry found

theorem predecryptMailCreates_facts {events : List EntityUpdateEvent}
    (faithful : ∀ ev ∈ events, FaithfulEvent env.backend ev) (world : World) :
    PendingFaithful (predecryptMailCreates env events world).1 ∧
      (predecryptMailCreates env events world).2.store = world.store ∧
      (predecryptMailCreates env events world).2.localStore = world.localStore := by
  have loop : ∀ (events : List EntityUpdateEvent) (state : Dict String PendingMail × World),
      (∀ ev ∈ events, FaithfulEvent env.backend ev) → PendingFaithful state.1 →
      PendingFaithful (events.foldl (predecryptMailCreate env) state).1 ∧
        (events.foldl (predecryptMailCreate env) state).2.store = state.2.store ∧
        (events.foldl (predecryptMailCreate env) state).2.localStore = state.2.localStore := by
    intro events
    induction events with
    | nil => intro state _ pending; exact ⟨pending, rfl, rfl⟩
    | cons ev rest ih =>
      intro state faithful pending
      have filed : ∀ json tick mail details, ev.inlined = some json →
          env.backend.decryptInlineMail tick json = .ok (some mail) →
          PendingFaithful (Dict.set state.1 ev.instanceId ⟨mail, details⟩) := by
        intro json tick mail details inlined answered mailEid entry found
        rw [Dict.get?_set] at found
        split at found
        next same =>
          cases found
          rw [same]
          exact (faithful ev List.mem_cons_self).mail json tick mail inlined answered
        next => exact pending mailEid entry found
      have step : PendingFaithful (predecryptMailCreate env state ev).1 ∧
          (predecryptMailCreate env state ev).2.store = state.2.store ∧
          (predecryptMailCreate env state ev).2.localStore = state.2.localStore := by
        unfold predecryptMailCreate
        split
        · exact ⟨pending, rfl, rfl⟩
        next json inlined =>
          dsimp only
          split
          next mail answered =>
            split
            · exact ⟨filed json _ mail none inlined answered, rfl, rfl⟩
            · split <;> exact ⟨filed json _ mail _ inlined answered, rfl, rfl⟩
          next => exact ⟨pending, rfl, rfl⟩
      obtain ⟨stepPending, stepStore, stepDisk⟩ := step
      obtain ⟨restPending, restStore, restDisk⟩ := ih _
        (fun other mem => faithful other (List.mem_cons_of_mem _ mem)) stepPending
      exact ⟨restPending, restStore.trans stepStore, restDisk.trans stepDisk⟩
  exact loop events (.empty, world) faithful (by intro mailEid entry found; simp at found)

/-! ## The fixtures are faithful -/

theorem entryEvent_mail {entriesListId mailEid : String} {operation : Operation} {at_ : Nat}
    (decoded : MailSetEntryId.deconstruct (entryEvent entriesListId operation).instanceId =
      .ok (at_, mailEid)) : mailEid = entryMail := by
  have known : (MailSetEntryId.deconstruct "V7ifKQAAAAAAAAAAAQ").toOption.map Prod.snd =
      some entryMail := by decide +kernel
  have decodedHere : MailSetEntryId.deconstruct "V7ifKQAAAAAAAAAAAQ" = .ok (at_, mailEid) := decoded
  rw [decodedHere] at known
  exact Option.some.inj known

theorem listingBackend_faithful {folders : List FolderInfo} {mails : List Mail}
    (identified : ∀ mail ∈ mails, mail.elementId.isSome) : Faithful (listingBackend folders mails) where
  loaded _ _ elementId mail answered := by
    have found : mails.find? (fun mail => mail.elementId = some elementId) = some mail :=
      Except.ok.inj answered
    simpa using List.find?_some found
  listed _ _ listed answered := by
    cases answered
    exact identified

theorem entryEvent_faithful (folders : List FolderInfo) (mails : List Mail) (entriesListId : String)
    (operation : Operation) :
    FaithfulEvent (listingBackend folders mails) (entryEvent entriesListId operation) where
  mail _ _ _ _ answered := by cases answered
  entry json _ entry at_ mailEid inlined answered decoded := by
    cases inlined
    cases answered
    exact (entryEvent_mail decoded).symm

end TutaBridge.Events
