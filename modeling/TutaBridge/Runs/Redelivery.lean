import TutaBridge.Events.Passing
import TutaBridge.Runs.UidNext
import TutaBridge.Runs.Uids

/-!
# A batch that is delivered twice

A batch comes again after a reconnect, or after a crash before its cursor was
stored. Deletes, mail events and fallback syncs may be repeated. A create may not,
unless its mail is taken away again: it takes a fresh UID also for a mail that is
in the folder already.
-/

namespace TutaBridge.Runs

open TutaBridge.Std Tuta Store Bridge Sync
open Events

/-- The same mails under the same UIDs in every folder, and the same rows. -/
structure SameView (left right : World) : Prop where
  folders : ∀ folderId, entries left folderId = entries right folderId
  rows : ∀ id, left.localStore.mails.find? id = right.localStore.mails.find? id

/-- The mail is inlined in the batch. -/
def Inlined (env : Env) (batch : EntityUpdateBatch) (id : String) : Prop :=
  ((predecryptMailCreates env (batch.updates.filter isMailCreate) atRest).1.get? id).isSome

section Conditions

variable (env : Env) (folders : List FolderInfo) (batch : EntityUpdateBatch) (world : World)

/-- A create finds the mail without the server: it is in a folder, or inlined. -/
def AtFirst (id : String) : Prop :=
  (∃ folderId, world.store.Holds folderId id) ∨ Inlined env batch id

/-- A create of the batch names the mail, in the folder. -/
def Created (folderId id : String) : Prop :=
  ∃ ev ∈ batch.updates, isEntryCreate ev ∧ entryPair folders ev = some (folderId, id)

/-- A create of the batch gets hold of the mail, and places it in the folder. -/
def Placed (folderId id : String) : Prop :=
  Places env folders (AtFirst env batch world) (batch.updates.filter isEntryCreate) folderId id

/-- The folder is synced at the end of the batch, and this is its listing. -/
def Resyncs (target : FolderInfo × List Mail) : Prop :=
  ∃ entriesListId, Queues env folders (AtFirst env batch world) (batch.updates.filter isEntryCreate) entriesListId ∧
    resynced env folders entriesListId = some target

/-- No sync at the end of the batch is of the folder. -/
def Unsynced (folderId : String) : Prop :=
  ∀ target, Resyncs env folders batch world target → target.1.id ≠ folderId

/-- No sync at the end of the batch lists the mail. -/
def Unlisted (id : String) : Prop :=
  ∀ target, Resyncs env folders batch world target → id ∉ listedIds target

/-- The syncs at the end of the batch do not depend on the folders that the batch finds,
and do not meddle with its creates, its deletes or each other. -/
structure Orderly : Prop where
  /-- A create that finds its mail in a folder would not queue a sync without it: the mail is
  inlined, or loaded by then, or the server answers for it, or the sync is queued anyway. -/
  quiet : ∀ earlier ev, earlier ++ [ev] <+: batch.updates.filter isEntryCreate → fallsBack env folders ev →
    ∀ folderId id, entryPair folders ev = some (folderId, id) → (∃ source, world.store.Holds source id) →
      Inlined env batch id ∨ Loaded env folders earlier id ∨
        Queues env folders (AtFirst env batch world) (batch.updates.filter isEntryCreate) ev.instanceListId
  /-- A mail that a create names is not listed. -/
  unlisted : ∀ folderId id, Created folders batch folderId id → Unlisted env folders batch world id
  /-- A mail deleted from another folder does not leave the synced one by being
  unlisted. -/
  deletedElsewhere : ∀ folderId id, TakenOut folders batch folderId id →
    ∀ target, Resyncs env folders batch world target →
      world.store.Holds target.1.id id ∨ Placed env folders batch world target.1.id id →
        id ∈ listedIds target ∨ TakenOut folders batch target.1.id id ∨ Forgotten env batch id
  /-- A mail that creates place and that stays in some folder is in all of them in one version,
  whose date no mail event changes. -/
  versions : ∀ folderId id, Placed env folders batch world folderId id → ∀ source, world.store.Holds source id →
    ¬ TakenOut folders batch source id → Forgotten env batch id ∨ ∃ mail, OneVersion world id mail ∧
      ∀ refreshed identified, .refresh id refreshed identified ∈ mailChanges env batch →
        refreshed.receivedDate = mail.receivedDate
  /-- No two synced folders share an id or a mail. -/
  compatible : ∀ left right, Resyncs env folders batch world left → Resyncs env folders batch world right →
    left = right ∨ Apart left right

/-- What the creates of the batch place is taken away again, and no sync at its end brings
back what the batch takes away. -/
structure Repeatable : Prop extends Orderly env folders batch world where
  /-- A mail that a create places is deleted from its folder, or forgotten, or dropped by
  the sync of the folder. -/
  passing : ∀ folderId id, Placed env folders batch world folderId id → TakenOut folders batch folderId id ∨
    Forgotten env batch id ∨ ∃ target, Resyncs env folders batch world target ∧ target.1.id = folderId
  /-- A mail that is deleted from the synced folder, or forgotten, is not listed there. -/
  deleted : ∀ target, Resyncs env folders batch world target → ∀ id ∈ listedIds target,
    ¬ TakenOut folders batch target.1.id id ∧ ¬ Forgotten env batch id

end Conditions

variable {env : Env}

theorem created_of_inFront {folders : List FolderInfo} {batch : EntityUpdateBatch} {earlier : List EntityUpdateEvent}
    {ev : EntityUpdateEvent} (inFront : earlier ++ [ev] <+: batch.updates.filter isEntryCreate) {folderId id : String}
    (found : entryPair folders ev = some (folderId, id)) : Created folders batch folderId id := by
  have mem := inFront.subset (List.mem_append_right earlier (List.mem_singleton_self ev))
  exact ⟨ev, List.mem_of_mem_filter mem, List.of_mem_filter mem, found⟩

theorem Placed.created {folders : List FolderInfo} {batch : EntityUpdateBatch} {world : World}
    {folderId id : String} :
    Placed env folders batch world folderId id → Created folders batch folderId id :=
  fun ⟨_, _, inFront, found, _⟩ => created_of_inFront inFront found

/-! ## One delivery -/

theorem steady_predecrypt (steady : Steady env.backend) (events : List EntityUpdateEvent) (world other : World) :
    (predecryptMailCreates env events world).1 = (predecryptMailCreates env events other).1 := by
  have loop : ∀ (events : List EntityUpdateEvent) (left right : Dict String PendingMail × World),
      left.1 = right.1 → (events.foldl (predecryptMailCreate env) left).1 =
        (events.foldl (predecryptMailCreate env) right).1 := by
    intro events
    induction events with
    | nil => exact fun _ _ same => same
    | cons ev rest ih =>
      intro left right same
      apply ih
      unfold predecryptMailCreate
      split
      · exact same
      · simp only [World.ask_fst, steady.mail left.2.tick, steady.mail right.2.tick]
        split
        · split
          · simp [same]
          · simp only [steady.details]
            split <;> simp [same]
        · exact same
  exact loop events _ _ rfl

/-- The events are about mails, not about folders. -/
def NoFolderEvents (batch : EntityUpdateBatch) : Prop :=
  ∀ ev ∈ batch.updates, isMailSetEvent ev = false

instance (batch : EntityUpdateBatch) : Decidable (NoFolderEvents batch) :=
  inferInstanceAs (Decidable (∀ ev ∈ batch.updates, _))

theorem beginBatch_stores {batch : EntityUpdateBatch}
    (faithfulEvents : ∀ ev ∈ batch.updates, FaithfulEvent env.backend ev)
    (noFolderEvents : NoFolderEvents batch) (world : World) :
    let start := beginBatch env (bucketUpdates batch.updates) world
    start.world.store = world.store ∧ start.world.localStore = world.localStore ∧ start.pending =
        (predecryptMailCreates env (batch.updates.filter isMailCreate) world).1 := by
  have notDirty : batch.updates.any isMailSetEvent = false := by
    rw [List.any_eq_false]
    intro ev mem
    simp [noFolderEvents ev mem]
  obtain ⟨_, store, localStore⟩ := predecryptMailCreates_facts
    (fun ev mem => faithfulEvents ev (List.mem_of_mem_filter mem)) world
  simp only [beginBatch, bucketUpdates_eq, notDirty, Bool.false_eq_true, if_false]
  exact ⟨store, localStore, trivial⟩

/-- The state `start` in which the creates of the batch begin. -/
structure Begins (env : Env) (batch : EntityUpdateBatch) (folders : List FolderInfo) (now : World)
    (start : BatchRun) : Prop where
  fair : Fair env start (batch.updates.filter isEntryCreate)
  events : ∀ ev ∈ batch.updates, FaithfulEvent env.backend ev
  store : start.world.store = now.store
  localStore : start.world.localStore = now.localStore
  inlined : ∀ id, (start.pending.get? id).isSome ↔ Inlined env batch id
  empty : start.fallbackFolders = []
  known : batchFolders env batch now = folders
  creates : applyCreates env batch now =
    (batch.updates.filter isEntryCreate).foldl (applyMailSetEntryCreate env folders) start

/-- What a delivery leaves: the synced folders settled, the others as the events left them, and
of the mails that are not listed no row in a synced folder. -/
structure Leaves (env : Env) (folders : List FolderInfo) (batch : EntityUpdateBatch) (now after : World) : Prop where
  settled : ∀ target, Resyncs env folders batch now target → Settled env target after
  mails : ∀ folderId, Unsynced env folders batch now folderId →
    after.store.getFolder folderId = (applyDeletes env batch now).store.getFolder folderId
  rows : ∀ id, Unlisted env folders batch now id → ∀ row,
    after.localStore.mails.find? id = some row ↔ (applyDeletes env batch now).localStore.mails.find? id = some row ∧
      Unsynced env folders batch now row.folderId

section Delivery

variable {folders : List FolderInfo} {batch : EntityUpdateBatch} {world now : World} {start : BatchRun} {id : String}

theorem exists_begins (reliable : Reliable env) (faithfulEvents : ∀ ev ∈ batch.updates, FaithfulEvent env.backend ev)
    (noFolderEvents : NoFolderEvents batch) (sameList : now.store.folderList = folders) :
    ∃ start, Begins env batch folders now start := by
  obtain ⟨store, localStore, pending⟩ := beginBatch_stores faithfulEvents noFolderEvents now
  refine ⟨beginBatch env (bucketUpdates batch.updates) now, ⟨reliable,
    fun ev mem => faithfulEvents ev (List.mem_of_mem_filter mem), pendingFaithful_beginBatch faithfulEvents now⟩,
    faithfulEvents, store, localStore, fun id => ?_, rfl, by rw [batchFolders, store, sameList], ?_⟩
  · rw [Inlined, pending, steady_predecrypt reliable.steady _ now atRest]
  · rw [applyCreates, store, sameList, bucketUpdates_eq]

theorem Begins.atHand (begins : Begins env batch folders now start) : AtHand start = AtFirst env batch now := by
  funext id
  rw [AtHand, begins.store, begins.inlined, AtFirst]

theorem Begins.applyDeletes_eq (begins : Begins env batch folders now start) :
    applyDeletes env batch now = applyEvents env folders batch (applyCreates env batch now).world := by
  rw [applyDeletes, begins.known, bucketUpdates_eq, applyEvents]

/-- A settled folder holds what is listed. -/
theorem holds_settled_iff {target : FolderInfo × List Mail} (settled : Settled env target world)
    (id : String) : world.store.Holds target.1.id id ↔ id ∈ listedIds target := by
  obtain ⟨uidOf, same⟩ := settled.folder
  have ids : (world.store.getFolder target.1.id).map StoredMail.elementId = target.2.map Mail.elementId := by
    have mapped := congrArg (List.map fun entry => entry.1.elementId) same
    rw [entries, List.map_map, List.map_map] at mapped
    exact mapped
  have held : world.store.Holds target.1.id id ↔
      some id ∈ (world.store.getFolder target.1.id).map StoredMail.elementId := by
    rw [List.mem_map]
    rfl
  rw [held, ids, listedIds, List.mem_filterMap, List.mem_map]

section

variable (begins : Begins env batch folders now start)

include begins

theorem Begins.exists_order :
    ∃ order, (∀ target, Target env folders order target ↔ Resyncs env folders batch now target) ∧
      applyBatch env batch now = order.foldl (fallbackSync env folders) (applyDeletes env batch now) := by
  have queue := @Fair.mem_fallbackFolders_iff env folders _ start begins.fair begins.empty
  rw [← begins.creates, begins.atHand] at queue
  refine ⟨env.hashOrder (applyDeletes env batch now).tick (applyCreates env batch now).fallbackFolders,
    fun target => exists_congr fun entriesListId => and_congr_left fun _ => ?_, by rw [applyBatch, begins.known]⟩
  rw [(env.hashOrder_perm _ _).mem_iff, queue]

theorem Begins.holds_iff (folderId id : String) : (applyDeletes env batch now).store.Holds folderId id ↔
      (now.store.Holds folderId id ∨ Placed env folders batch now folderId id) ∧
        ¬ TakenOut folders batch folderId id ∧ ¬ Forgotten env batch id := by
  rw [begins.applyDeletes_eq, holds_applyEvents_iff begins.fair.reliable.steady, begins.creates,
    begins.fair.holds_iff, begins.store, begins.atHand]
  rfl

theorem Begins.leaves
    (compatible : ∀ left right, Resyncs env folders batch now left → Resyncs env folders batch now right →
      left = right ∨ Apart left right) : Leaves env folders batch now (applyBatch env batch now) := by
  obtain ⟨order, targets, applied⟩ := begins.exists_order
  obtain ⟨mails, rows⟩ := @fallbacks_elsewhere env folders order begins.fair.reliable (applyDeletes env batch now)
  rw [applied]
  simp only [targets] at mails rows
  refine ⟨fun target resyncs => ?_, mails, rows⟩
  refine settled_fallbacks begins.fair.reliable (fun left right isLeft isRight => ?_) _ ((targets target).mpr resyncs)
  exact compatible left right ((targets left).mp isLeft) ((targets right).mp isRight)

/-- A folder that loses what creates place in it is as if they had not been. -/
theorem Begins.getFolder {folderId : String} (passing : ∀ id, Placed env folders batch now folderId id →
      TakenOut folders batch folderId id ∨ Forgotten env batch id) :
    (applyDeletes env batch now).store.getFolder folderId =
      (folderChanges env folders batch folderId).foldl MailChange.onMails (now.store.getFolder folderId) := by
  rw [begins.applyDeletes_eq, getFolder_applyEvents begins.fair.reliable begins.events, begins.creates,
    begins.fair.elsewhere.1, begins.store]
  rw [begins.atHand]
  exact fun id placed => forget_mem_folderChanges_iff.mpr (passing id placed)

theorem Begins.keptUid {folderId : String} (unplaced : ¬ Placed env folders batch now folderId id)
    (kept : ¬ TakenOut folders batch folderId id ∧ ¬ Forgotten env batch id) :
    Events.keptUid ((applyDeletes env batch now).store.getFolder folderId) id =
      Events.keptUid (now.store.getFolder folderId) id := by
  rw [begins.applyDeletes_eq, getFolder_applyEvents begins.fair.reliable begins.events, keptUid_foldl_onMails
    (mt forget_mem_folderChanges_iff.mp (not_or.mpr kept)), begins.creates,
    begins.fair.elsewhere.2.1, begins.store]
  rwa [begins.atHand]

theorem Begins.find?_of_gone
    (gone : Forgotten env batch id ∨ (∃ folderId, TakenOut folders batch folderId id) ∧
      ∀ folderId, ¬ (applyDeletes env batch now).store.Holds folderId id) :
    (applyDeletes env batch now).localStore.mails.find? id = none := by
  rw [begins.applyDeletes_eq] at gone ⊢
  exact find?_applyEvents_of_gone begins.fair.reliable begins.events gone

theorem Begins.find?_of_unplaced (kept : (∀ folderId, ¬ TakenOut folders batch folderId id) ∨
      ∃ folderId, (applyDeletes env batch now).store.Holds folderId id)
    (unplaced : ∀ folderId, ¬ Placed env folders batch now folderId id) :
    (applyDeletes env batch now).localStore.mails.find? id =
      (mailChanges env batch).foldl (MailChange.onRow env.codec id) (now.localStore.mails.find? id) := by
  rw [begins.applyDeletes_eq] at kept ⊢
  rw [find?_applyEvents_of_kept begins.fair.reliable begins.events kept, begins.creates,
    begins.fair.elsewhere.2.2, begins.localStore]
  rwa [begins.atHand]

/-- The row of a placed mail, before and after the mail events. -/
theorem Begins.find?_of_placed (kept : (∀ folderId, ¬ TakenOut folders batch folderId id) ∨
      ∃ folderId, (applyDeletes env batch now).store.Holds folderId id)
    {folderId : String} (placed : Placed env folders batch now folderId id) :
    ∃ row, (applyDeletes env batch now).localStore.mails.find? id =
        (mailChanges env batch).foldl (MailChange.onRow env.codec id) (some row) ∧
      lastFolder folders (batch.updates.filter isEntryCreate) id = some row.folderId ∧
      Placed env folders batch now row.folderId id ∧
      ∀ mail, (∃ folderId, now.store.Holds folderId id) → OneVersion now id mail →
        createdColumns env row.folderId mail row = row ∧ ∀ old, now.localStore.mails.find? id = some old →
          row = createdColumns env row.folderId mail old := by
  rw [Placed, ← begins.atHand] at placed
  obtain ⟨row, found, last, rowPlaced, written⟩ := begins.fair.row placed
  rw [begins.applyDeletes_eq] at kept ⊢
  simp only [begins.store, begins.localStore, OneVersion] at written
  rw [begins.atHand] at rowPlaced
  refine ⟨row, ?_, last, rowPlaced, written⟩
  rw [find?_applyEvents_of_kept begins.fair.reliable begins.events kept, begins.creates, found]

/-- The version of a mail that folders agree on, with the change of the mail events. -/
theorem Begins.oneVersion {mail : Mail}
    (held : ∃ folderId, now.store.Holds folderId id) (one : OneVersion now id mail) {change : Mail → Mail}
    (changes : ∀ mails, version ((mailChanges env batch).foldl MailChange.onMails mails) id =
      (version mails id).map change) : OneVersion (applyDeletes env batch now) id (change mail) := by
  intro folderId shown isShown
  have created := @Fair.oneVersion env folders _ start id begins.fair mail
    (by rwa [begins.store]) (by rwa [OneVersion, begins.store])
  obtain ⟨stored, found, -⟩ := Option.map_eq_some_iff.mp isShown
  have isHeld : (applyDeletes env batch now).store.Holds folderId id :=
    ⟨stored, List.mem_of_find?_eq_some found, by simpa using List.find?_some found⟩
  have notOut := ((begins.holds_iff folderId id).mp isHeld).2.1
  rw [begins.applyDeletes_eq, (applyEvents_changes begins.fair.reliable begins.events _).1, changes,
    getFolder_deletes begins.fair.reliable.diskOk, begins.creates] at isShown
  -- the deletes leave the folder its version
  have removals : ∀ change ∈ (batch.updates.filter isEntryDelete).filterMap (removal folders folderId),
      ∃ other, change = .forget other ∧ TakenOut folders batch folderId other := by
    intro change mem
    obtain ⟨ev, inBatch, removes⟩ := List.mem_filterMap.mp mem
    obtain ⟨⟨source, other⟩, named, isChange⟩ := Option.bind_eq_some_iff.mp removes
    by_cases here : source = folderId
    · subst here
      exact ⟨other, by simpa [eq_comm] using isChange, ev, List.mem_of_mem_filter inBatch,
        List.of_mem_filter inBatch, named⟩
    · simp [here] at isChange
  have kept : .forget id ∉ (batch.updates.filter isEntryDelete).filterMap (removal folders folderId) := by
    intro mem
    obtain ⟨other, same, out⟩ := removals _ mem
    cases same
    exact notOut out
  rcases refreshed_or_not kept env.codec with ⟨same, -⟩ | ⟨_, _, mem, -⟩
  · rw [same] at isShown
    obtain ⟨copy, copyShown, rfl⟩ := Option.map_eq_some_iff.mp isShown
    rw [created folderId copy copyShown]
  · obtain ⟨other, same, -⟩ := removals _ mem
    cases same

end

end Delivery

/-! ## Two deliveries -/

/-- Mail events leave a row in its folder. -/
theorem folderId_of_changed {changes : List MailChange} {id : String} (kept : .forget id ∉ changes)
    {codec : MailCodec} {old row : MailMetadata}
    (changed : changes.foldl (MailChange.onRow codec id) (some old) = some row) :
    row.folderId = old.folderId := by
  rcases refreshed_or_not kept codec with ⟨-, same⟩ | ⟨mail, -, -, -, refreshes⟩
  · rw [same] at changed
    cases changed
    rfl
  · rw [refreshes] at changed
    cases changed
    rfl

/-- A create writes a row anew that it wrote before, and a mail event refreshed. -/
theorem refreshRow_createdColumns {mail refreshed : Mail} {row : MailMetadata}
    (columns : createdColumns env row.folderId mail row = row)
    (sameDate : refreshed.receivedDate = mail.receivedDate) :
    MailChange.refreshRow env.codec refreshed (createdColumns env row.folderId refreshed
      (MailChange.refreshRow env.codec refreshed row)) = MailChange.refreshRow env.codec refreshed row := by
  rw [← columns]
  simp only [createdColumns, LocalStore.conflictColumns, mailToMetadata, MailChange.refreshRow, sameDate]

/-- A repeatable batch is delivered, and then delivered again. -/
structure Again (env : Env) (folders : List FolderInfo) (batch : EntityUpdateBatch) (world once : World)
    (start second : BatchRun) : Prop where
  first : Begins env batch folders world start
  second : Begins env batch folders once second
  leaves : Leaves env folders batch world once
  repeatable : Repeatable env folders batch world

section Again

variable {folders : List FolderInfo} {batch : EntityUpdateBatch} {world once : World} {start second : BatchRun}
  {folderId source id : String}

/-- Between the deliveries an unlisted mail is where the events left it, but not in a synced
folder. -/
theorem Leaves.holds_iff (leaves : Leaves env folders batch world once)
    (unlisted : Unlisted env folders batch world id)
    (folderId : String) : once.store.Holds folderId id ↔ (applyDeletes env batch world).store.Holds folderId id ∧
      Unsynced env folders batch world folderId := by
  by_cases synced : ∃ target, Resyncs env folders batch world target ∧ target.1.id = folderId
  · obtain ⟨target, resyncs, rfl⟩ := synced
    rw [holds_settled_iff (leaves.settled target resyncs)]
    exact iff_of_false (unlisted target resyncs) fun ⟨_, others⟩ => others target resyncs rfl
  · have unsynced := fun target resyncs same => synced ⟨target, resyncs, same⟩
    rw [MailStore.Holds, leaves.mails folderId unsynced]
    exact (and_iff_left unsynced).symm

variable (again : Again env folders batch world once start second)

namespace Again

include again

/-- A mail that creates name is between the deliveries only where it was before. -/
theorem holds_between (created : Created folders batch folderId id)
    (held : once.store.Holds source id) : world.store.Holds source id := by
  obtain ⟨kept, unsynced⟩ := (again.leaves.holds_iff (again.repeatable.unlisted folderId id created) source).mp held
  obtain ⟨before | placed, notOut, remembered⟩ := (again.first.holds_iff source id).mp kept
  · exact before
  · rcases again.repeatable.passing source id placed with out | forgotten | ⟨target, resyncs, same⟩
    · exact absurd out notOut
    · exact absurd forgotten remembered
    · exact absurd same (unsynced target resyncs)

theorem atFirst_between (created : Created folders batch folderId id) :
    AtFirst env batch once id → AtFirst env batch world id :=
  Or.imp_left fun ⟨source, held⟩ =>
    ⟨source, again.holds_between created held⟩

theorem placed : Placed env folders batch once folderId id → Placed env folders batch world folderId id := by
  rintro ⟨earlier, ev, inFront, found, finds⟩
  exact ⟨earlier, ev, inFront, found, finds.imp_left
    (again.atFirst_between (created_of_inFront inFront found))⟩

/-- A listed mail is not placed. -/
theorem unplaced {target : FolderInfo × List Mail} (isResynced : Resyncs env folders batch world target)
    (isListed : id ∈ listedIds target) (folderId : String) : ¬ Placed env folders batch once folderId id :=
  fun placed => again.repeatable.unlisted folderId id placed.created target isResynced isListed

theorem resyncs_iff (target : FolderInfo × List Mail) :
    Resyncs env folders batch once target ↔ Resyncs env folders batch world target := by
  refine exists_congr fun entriesListId => and_congr_left fun _ => ⟨?_, ?_⟩
  · rintro ⟨earlier, ev, inFront, rfl, falls, unfound⟩
    by_cases finds : ∃ pair, entryPair folders ev = some pair ∧
        (AtFirst env batch world pair.2 ∨ Loaded env folders earlier pair.2)
    · obtain ⟨pair, found, (held | inlined) | loaded⟩ := finds
      · rcases again.repeatable.quiet earlier ev inFront falls pair.1 pair.2 found held with inlined | loaded | queues
        · exact absurd (.inl (.inr inlined)) (unfound pair found)
        · exact absurd (.inr loaded) (unfound pair found)
        · exact queues
      · exact absurd (.inl (.inr inlined)) (unfound pair found)
      · exact absurd (.inr loaded) (unfound pair found)
    · exact ⟨earlier, ev, inFront, rfl, falls, fun pair found isFound => finds ⟨pair, found, isFound⟩⟩
  · rintro ⟨earlier, ev, inFront, rfl, falls, unfound⟩
    refine ⟨earlier, ev, inFront, rfl, falls, fun pair found => ?_⟩
    exact mt (Or.imp_left (again.atFirst_between (created_of_inFront inFront found))) (unfound pair found)

/-- A mail that a delete of the batch names is not left in a folder that is synced. -/
theorem stays_between (out : TakenOut folders batch source id) (unlisted : Unlisted env folders batch world id)
    (held : (applyDeletes env batch world).store.Holds folderId id) : once.store.Holds folderId id := by
  refine (again.leaves.holds_iff unlisted folderId).mpr ⟨held, ?_⟩
  rintro target resyncs rfl
  obtain ⟨before, notOut, remembered⟩ := (again.first.holds_iff _ id).mp held
  rcases again.repeatable.deletedElsewhere source id out target resyncs before with isListed | here | forgotten
  · exact unlisted target resyncs isListed
  · exact notOut here
  · exact remembered forgotten

/-- A mail that is in no folder behind the events of the first delivery is in none behind
those of the second. -/
theorem nowhere (unlisted : Unlisted env folders batch world id)
    (nowhere : ∀ folderId, ¬ (applyDeletes env batch world).store.Holds folderId id) (folderId : String) :
    ¬ (applyDeletes env batch once).store.Holds folderId id := by
  intro held
  obtain ⟨before | placed, kept⟩ := (again.second.holds_iff folderId id).mp held
  · exact nowhere folderId ((again.leaves.holds_iff unlisted folderId).mp before).1
  · exact nowhere folderId ((again.first.holds_iff folderId id).mpr
      ⟨.inr (again.placed placed), kept⟩)

/-- The row of a mail that creates place and that a folder keeps. -/
theorem find?_of_staying (placed : Placed env folders batch world folderId id)
    (unlisted : Unlisted env folders batch world id)
    (stays : (applyDeletes env batch world).store.Holds source id) (between : once.store.Holds source id)
    {row : MailMetadata}
    (found : (applyDeletes env batch world).localStore.mails.find? id = some row)
    (unsynced : Unsynced env folders batch world row.folderId) :
    (applyDeletes env batch once).localStore.mails.find? id = some row := by
  obtain ⟨earlier, ev, inFront, named, finds⟩ := placed
  have held := again.holds_between (created_of_inFront inFront named) between
  obtain ⟨-, notOut, remembered⟩ := (again.first.holds_iff source id).mp stays
  have keptAgain := (again.second.holds_iff source id).mpr ⟨.inl between, notOut, remembered⟩
  obtain ⟨mail, one, dates⟩ := (again.repeatable.versions folderId id ⟨earlier, ev, inFront, named, finds⟩ source held
    notOut).resolve_left remembered
  obtain ⟨first, changed, last, -, written⟩ := again.first.find?_of_placed
    (.inr ⟨source, stays⟩) ⟨earlier, ev, inFront, named, finds⟩
  obtain ⟨rewritten, changedAgain, lastAgain, -, writtenAgain⟩ := again.second.find?_of_placed
    (.inr ⟨source, keptAgain⟩) ⟨earlier, ev, inFront, named, .inl (.inl ⟨source, between⟩)⟩
  have sameFolder : rewritten.folderId = first.folderId := Option.some.inj (lastAgain.symm.trans last)
  have columns := (written mail ⟨source, held⟩ one).1
  have writes : ∀ change : Mail → Mail, (∀ mails, version ((mailChanges env batch).foldl MailChange.onMails mails) id =
      (version mails id).map change) → rewritten = createdColumns env first.folderId (change mail) row := by
    intro change changes
    have oneOnce : OneVersion once id (change mail) := by
      intro folderId shown isShown
      obtain ⟨stored, isFirst, -⟩ := Option.map_eq_some_iff.mp isShown
      obtain ⟨-, unsynced⟩ := (again.leaves.holds_iff unlisted folderId).mp
        ⟨stored, List.mem_of_find?_eq_some isFirst, by simpa using List.find?_some isFirst⟩
      rw [again.leaves.mails folderId unsynced] at isShown
      exact again.first.oneVersion ⟨source, held⟩ one changes folderId shown isShown
    rw [← sameFolder]
    exact (writtenAgain (change mail) ⟨source, between⟩ oneOnce).2 row
      ((again.leaves.rows id unlisted row).mpr ⟨found, unsynced⟩)
  rcases refreshed_or_not (mt forget_mem_mailChanges_iff.mp remembered) env.codec
    with ⟨versions, rows⟩ | ⟨refreshed, identified, mem, versions, rows⟩
  · rw [changed, rows] at found
    cases found
    rw [changedAgain, rows, writes (fun mail => mail) (fun mails => by rw [versions, Option.map_id']), columns]
  · rw [changed, rows] at found
    cases found
    rw [changedAgain, rows, writes (fun _ => refreshed) versions]
    exact congrArg some (refreshRow_createdColumns columns (dates refreshed identified mem))

/-- The row of a placed mail is in the folder of the last create after the second delivery as well. -/
theorem folderId_again (unlisted : Unlisted env folders batch world id) (remembered : ¬ Forgotten env batch id)
    {first row : MailMetadata} (changed : (applyDeletes env batch world).localStore.mails.find? id =
      (mailChanges env batch).foldl (MailChange.onRow env.codec id) (some first))
    (last : lastFolder folders (batch.updates.filter isEntryCreate) id = some first.folderId)
    (found : (applyDeletes env batch once).localStore.mails.find? id = some row) : row.folderId = first.folderId := by
  have unforgotten := mt forget_mem_mailChanges_iff.mp remembered
  have goneOrKept := gone_or_kept env folders batch (applyCreates env batch once).world id
  rw [← again.second.applyDeletes_eq] at goneOrKept
  obtain ⟨-, kept⟩ := goneOrKept.resolve_left fun gone => by
    rw [again.second.find?_of_gone gone] at found
    cases found
  by_cases placed : ∃ folderId, Placed env folders batch once folderId id
  · obtain ⟨folderId, placed⟩ := placed
    obtain ⟨rewritten, changedAgain, lastAgain, -⟩ := again.second.find?_of_placed kept placed
    rw [folderId_of_changed unforgotten (changedAgain.symm.trans found)]
    exact Option.some.inj (lastAgain.symm.trans last)
  · rw [again.second.find?_of_unplaced kept (not_exists.mp placed)] at found
    cases between : once.localStore.mails.find? id with
    | none =>
      rw [between, MailChange.foldl_onRow_none] at found
      cases found
    | some old =>
      rw [between] at found
      rw [folderId_of_changed unforgotten found]
      obtain ⟨oldFound, -⟩ := (again.leaves.rows id unlisted old).mp between
      exact folderId_of_changed unforgotten (changed.symm.trans oldFound)

/-- A mail that no create places has the row that the mail events make of the old one. -/
theorem find?_iff_of_unplaced (unlisted : Unlisted env folders batch world id)
    (kept : (∀ folderId, ¬ TakenOut folders batch folderId id) ∨
      ∃ folderId, (applyDeletes env batch world).store.Holds folderId id)
    (unplaced : ∀ folderId, ¬ Placed env folders batch world folderId id) {row : MailMetadata}
    (unsynced : Unsynced env folders batch world row.folderId) :
    (applyDeletes env batch once).localStore.mails.find? id = some row ↔
      (applyDeletes env batch world).localStore.mails.find? id = some row := by
  have keptAgain : (∀ folderId, ¬ TakenOut folders batch folderId id) ∨
      ∃ folderId, (applyDeletes env batch once).store.Holds folderId id := by
    by_cases out : ∃ folderId, TakenOut folders batch folderId id
    · obtain ⟨folderId, out⟩ := out
      obtain ⟨source, stays⟩ := kept.resolve_left fun unnamed => unnamed folderId out
      exact .inr ⟨source, (again.second.holds_iff source id).mpr
        ⟨.inl (again.stays_between out unlisted stays), ((again.first.holds_iff source id).mp stays).2⟩⟩
    · exact .inl (not_exists.mp out)
  have repeats := fun before => (MailChange.onRow_absorbing env.codec id).foldl_foldl (mailChanges env batch) before
  have between := again.leaves.rows id unlisted
  rw [again.first.find?_of_unplaced kept unplaced] at between ⊢
  rw [again.second.find?_of_unplaced keptAgain fun folderId => mt again.placed (unplaced folderId)]
  refine ⟨fun foundAgain => ?_, fun found => ?_⟩
  · cases foundOnce : once.localStore.mails.find? id with
    | none =>
      rw [foundOnce, MailChange.foldl_onRow_none] at foundAgain
      cases foundAgain
    | some old => rwa [foundOnce, ← ((between old).mp foundOnce).1, repeats] at foundAgain
  · rw [(between row).mpr ⟨found, unsynced⟩, ← found, repeats]

/-- The row of an unlisted mail in a folder that is not synced. -/
theorem find?_iff (unlisted : Unlisted env folders batch world id) {row : MailMetadata}
    (unsynced : Unsynced env folders batch world row.folderId) :
    (applyDeletes env batch once).localStore.mails.find? id = some row ↔
      (applyDeletes env batch world).localStore.mails.find? id = some row := by
  have goneOrKept := gone_or_kept env folders batch (applyCreates env batch world).world id
  rw [← again.first.applyDeletes_eq] at goneOrKept
  rcases goneOrKept with gone | ⟨remembered, kept⟩
  · rw [again.first.find?_of_gone gone, again.second.find?_of_gone (gone.imp_right fun ⟨out, nowhere⟩ =>
      ⟨out, again.nowhere unlisted nowhere⟩)]
  by_cases placed : ∃ folderId, Placed env folders batch world folderId id
  · obtain ⟨folderId, placed⟩ := placed
    have unforgotten := mt forget_mem_mailChanges_iff.mp remembered
    obtain ⟨first, changed, last, firstPlaced, -⟩ := again.first.find?_of_placed kept placed
    by_cases synced : ∃ target, Resyncs env folders batch world target ∧ target.1.id = first.folderId
    · -- the sync drops the row after either delivery
      obtain ⟨target, resyncs, same⟩ := synced
      refine iff_of_false (fun found => ?_) fun found => ?_ <;> refine unsynced target resyncs (same.trans ?_)
      · exact (again.folderId_again unlisted remembered changed last found).symm
      · exact (folderId_of_changed unforgotten (changed.symm.trans found)).symm
    · have out := (again.repeatable.passing first.folderId id firstPlaced).resolve_right
        (not_or.mpr ⟨remembered, synced⟩)
      obtain ⟨source, stays⟩ := kept.resolve_left fun unnamed => unnamed first.folderId out
      have between := again.stays_between out unlisted stays
      have rewrites : ∀ {row : MailMetadata}, (applyDeletes env batch world).localStore.mails.find? id = some row →
          (applyDeletes env batch once).localStore.mails.find? id = some row := fun found =>
        again.find?_of_staying placed unlisted stays between found fun target resyncs same =>
          synced ⟨target, resyncs, same.trans (folderId_of_changed unforgotten (changed.symm.trans found))⟩
      refine ⟨fun foundAgain => ?_, rewrites⟩
      rcases refreshed_or_not unforgotten env.codec with ⟨-, rows⟩ | ⟨refreshed, -, -, -, rows⟩ <;>
        rw [rows] at changed <;> exact changed.trans ((rewrites changed).symm.trans foundAgain)
  · exact again.find?_iff_of_unplaced unlisted kept (not_exists.mp placed) unsynced

/-- The second delivery changes nothing. -/
theorem sameView : SameView (applyBatch env batch once) once := by
  have resyncs := again.resyncs_iff
  obtain ⟨-, mails, rows⟩ := again.second.leaves (by simpa only [resyncs] using again.repeatable.compatible)
  obtain ⟨order, targets, applied⟩ := again.second.exists_order
  simp only [Unsynced, Unlisted, resyncs] at mails rows targets
  have restorable : Restorable env folders order once (applyDeletes env batch once) := by
    refine ⟨fun target isTarget id isListed => ?_, fun target isTarget mail mem id identified => ?_⟩
    all_goals have isResynced := (targets target).mp isTarget
    · exact again.second.keptUid (again.unplaced isResynced isListed target.1.id)
        (again.repeatable.deleted target isResynced id isListed)
    · have isListed : id ∈ listedIds target := List.mem_filterMap.mpr ⟨mail, mem, identified⟩
      have kept := again.repeatable.deleted target isResynced id isListed
      obtain ⟨row, found, columns⟩ := (again.leaves.settled target isResynced).rows mail mem id identified
      have held := (holds_settled_iff (again.leaves.settled target isResynced) id).mpr isListed
      have changed := again.second.find?_of_unplaced (.inr ⟨target.1.id, (again.second.holds_iff _ id).mpr
        ⟨.inl held, kept⟩⟩) (again.unplaced isResynced isListed)
      rw [found] at changed
      rcases refreshed_or_not (mt forget_mem_mailChanges_iff.mp kept.2) env.codec
        with ⟨-, same⟩ | ⟨refreshed, -, -, -, same⟩ <;> rw [same] at changed
      · exact ⟨row, changed, folderId_of_listedColumns columns, by rw [found, columns]⟩
      · refine ⟨_, changed, show row.folderId = _ from folderId_of_listedColumns columns, ?_⟩
        rw [found, ← columns]
        rfl
  have restored : ∀ target, Resyncs env folders batch world target →
      Restored target once (applyBatch env batch once) := by
    intro target isResynced
    rw [applied]
    exact restored_fallbacks again.first.fair.reliable (fun left right isLeft isRight =>
      again.repeatable.compatible left right ((targets left).mp isLeft) ((targets right).mp isRight)) (fun target isTarget => again.leaves.settled target
        ((targets target).mp isTarget)) restorable ((targets target).mpr isResynced)
  refine ⟨fun folderId => ?_, fun id => ?_⟩
  · by_cases synced : ∃ target, Resyncs env folders batch world target ∧ target.1.id = folderId
    · obtain ⟨target, isResynced, rfl⟩ := synced
      exact (restored target isResynced).folder
    · have unsynced := fun target isResynced same => synced ⟨target, isResynced, same⟩
      have passing : ∀ id, Placed env folders batch world folderId id →
          TakenOut folders batch folderId id ∨ Forgotten env batch id := fun id placed =>
        (or_assoc.mpr (again.repeatable.passing folderId id placed)).resolve_right synced
      rw [entries, entries, mails folderId unsynced,
        again.second.getFolder fun id placed => passing id (again.placed placed),
        again.leaves.mails folderId unsynced, again.first.getFolder passing, MailChange.onMails_absorbing.foldl_foldl]
  · by_cases isListed : ∃ target, Resyncs env folders batch world target ∧ id ∈ listedIds target
    · obtain ⟨target, isResynced, inListing⟩ := isListed
      exact (restored target isResynced).rows id inListing
    · have unlisted := fun target isResynced inListing => isListed ⟨target, isResynced, inListing⟩
      ext row
      rw [rows id unlisted row, again.leaves.rows id unlisted row]
      exact and_congr_left fun unsynced => again.find?_iff unlisted unsynced

end Again

end Again

/-- A repeatable batch may be delivered twice. -/
theorem sameView_of_repeatable {batch : EntityUpdateBatch} {world : World} (reliable : Reliable env)
    (faithfulEvents : ∀ ev ∈ batch.updates, FaithfulEvent env.backend ev) (noFolderEvents : NoFolderEvents batch)
    (repeatable : Repeatable env world.store.folderList batch world) :
    SameView (applyBatch env batch (applyBatch env batch world)) (applyBatch env batch world) := by
  obtain ⟨start, begins⟩ := @exists_begins env _ batch world reliable faithfulEvents noFolderEvents rfl
  have leaves := begins.leaves repeatable.compatible
  have sameList : (applyBatch env batch world).store.folderList = world.store.folderList := by
    rw [folderList_applyBatch, begins.known]
  obtain ⟨second, beginsAgain⟩ := exists_begins reliable faithfulEvents noFolderEvents sameList
  generalize applyBatch env batch world = once at leaves beginsAgain ⊢
  exact Again.sameView ⟨begins, beginsAgain, leaves, repeatable⟩

/-! ## The UIDs of a create -/

section Stamps

variable {folders : List FolderInfo}

theorem uidStep_create (diskOk : env.DiskOk) (folders : List FolderInfo) (run : BatchRun)
    (ev : EntityUpdateEvent) (folderId : String) :
    UidStep run.world (applyMailSetEntryCreate env folders run ev).world folderId := by
  have asked : ∀ after : World, after.store = run.world.store →
      after.localStore = run.world.localStore → UidStep run.world after folderId :=
    fun after store localStore => .of_sublist (by rw [localStore]) (by rw [store])
  obtain ⟨entryStore, entryDisk⟩ := resolveMailSetEntry_stores env ev run.world
  obtain ⟨requestedStore, requestedDisk⟩ := requested_stores env ev run.world
  have outcome := createOutcome env folders run ev
  generalize applyMailSetEntryCreate env folders run ev = after at outcome ⊢
  cases outcome with
  | unplaced => exact asked _ rfl rfl
  | cached => exact uidStep_assignUidAndUpsert diskOk _ _ _ _ _
  | @inlined _ mailEid target pending =>
    unfold applyInlineCreate
    dsimp only
    refine UidStep.trans ?_ (uidStep_assignUidAndUpsert diskOk _ _ _ _ _)
    split
    · exact .refl _ _
    next eml _ =>
      obtain ⟨mails, localStore⟩ :=
        persistInlineBody_facts diskOk mailEid pending.details eml run.world
      refine .of_sublist ?_ (by rw [mails])
      rw [localStore]
      rfl
  | unresolved => exact asked _ entryStore entryDisk
  | loaded =>
    exact (asked _ requestedStore requestedDisk).trans (uidStep_assignUidAndUpsert diskOk _ _ _ _ _)
  | gone => exact asked _ requestedStore requestedDisk
  | failed => exact asked _ requestedStore requestedDisk

theorem uidStep_fallbackSync (diskOk : env.DiskOk) (lists : ListsDistinctIds env.backend)
    (entriesListId : String) (world : World) (folderId : String) :
    UidStep world (fallbackSync env folders world entriesListId) folderId := by
  unfold fallbackSync
  split
  · exact .refl _ _
  · exact uidStep_syncFolder diskOk lists _ world folderId

/-- A create of a mail that its folder has stamps it anew. -/
theorem create_restamps (diskOk : env.DiskOk) {run : BatchRun} {ev : EntityUpdateEvent}
    {pair : String × String} (found : entryPair folders ev = some pair)
    (held : run.world.store.Holds pair.1 pair.2) (sound : UidsSound run.world pair.1)
    (started : 0 < run.world.localStore.nextUid pair.1)
    (fits : (applyMailSetEntryCreate env folders run ev).world.localStore.nextUid pair.1 ≤ 2 ^ 32) :
    ∀ stored ∈ (applyMailSetEntryCreate env folders run ev).world.store.getFolder pair.1,
      stored.elementId = some pair.2 → run.world.localStore.nextUid pair.1 ≤ stored.uid := by
  obtain ⟨at_, target, decoded, known, targetId⟩ := entryPair_eq_some_imp found
  have located : (locate env run.world pair.2).isSome :=
    (MailStore.isSome_findMailAnywhere_iff (env.hashOrder_perm _ _)).mpr
      (MailStore.isMailAnywhere_iff.mpr ⟨pair.1, held⟩)
  obtain ⟨⟨source, copy⟩, isCopy⟩ := Option.isSome_iff_exists.mp located
  have identified := (MailStore.findMailAnywhere_eq_some_imp isCopy).2
  have applied : (applyMailSetEntryCreate env folders run ev).world =
      assignUidAndUpsert env target pair.2 copy run.world := by
    simp only [applyMailSetEntryCreate, decoded, known, isCopy]
  have step := uidStep_create diskOk folders run ev pair.1
  have soundAfter := step.sound fits sound started
  rw [applied] at fits soundAfter ⊢
  have counter := nextUid_assignUidAndUpsert diskOk target pair.2 copy run.world pair.1
  rw [if_pos targetId.symm] at counter
  have mails : (assignUidAndUpsert env target pair.2 copy run.world).store.getFolder pair.1 =
      MailStore.upsertList { copy with uid := nextStamp run.world target.id } pair.2
        (run.world.store.getFolder pair.1) := by
    rw [assignUidAndUpsert_store diskOk, MailStore.getFolder_upsertMailInFolder
      { copy with uid := nextStamp run.world target.id } identified, if_pos targetId.symm, targetId]
  intro stored mem isMail
  have stampedMember : { copy with uid := nextStamp run.world target.id } ∈
      (assignUidAndUpsert env target pair.2 copy run.world).store.getFolder pair.1 := by
    rw [mails]
    exact MailStore.mem_upsertList_self _
  have isNew := soundAfter.eq_of_elementId mem stampedMember isMail identified
  have stamp : nextStamp run.world target.id = run.world.localStore.nextUid pair.1 := by
    rw [nextStamp, targetId]
    exact Nat.mod_eq_of_lt (by omega)
  rw [isNew]
  exact stamp.ge

end Stamps

section Restamped

variable {folders : List FolderInfo} {batch : EntityUpdateBatch} {world now : World} {start : BatchRun}
  {folderId id : String}

/-- No copy of the mail in the folder has a UID below the bound. -/
def Renewed (world : World) (folderId id : String) (bound : Nat) : Prop :=
  ∀ stored ∈ world.store.getFolder folderId, stored.elementId = some id → bound ≤ stored.uid

theorem UidStep.renewed {before after : World} {bound : Nat} (step : UidStep before after folderId)
    (fits : after.localStore.nextUid folderId ≤ 2 ^ 32) (below : bound ≤ before.localStore.nextUid folderId)
    (renewed : Renewed before folderId id bound) : Renewed after folderId id bound := by
  intro stored mem isMail
  rcases step.stamped fits stored mem with ⟨old, oldMember, sameId, sameUid⟩ | fresh
  · exact sameUid ▸ renewed old oldMember (sameId.trans isMail)
  · exact below.trans fresh

theorem uidStep_creates (diskOk : env.DiskOk) (folders : List FolderInfo) (creates : List EntityUpdateEvent)
    (start : BatchRun) (folderId : String) :
    UidStep start.world (creates.foldl (applyMailSetEntryCreate env folders) start).world folderId := by
  refine List.foldlRecOn (motive := fun run : BatchRun => UidStep start.world run.world folderId)
    _ _ (.refl _ _) ?_
  exact fun run step ev _ => step.trans (uidStep_create diskOk folders run ev folderId)

/-- No change of a folder gives a mail another UID. -/
theorem stamps_foldl_onMails (changes : List MailChange) (mails : List StoredMail) :
    ((changes.foldl MailChange.onMails mails).map fun stored => (stored.elementId, stored.uid)).Sublist
      (mails.map fun stored => (stored.elementId, stored.uid)) := by
  induction changes generalizing mails with
  | nil => exact List.Sublist.refl _
  | cons change rest ih =>
    refine (ih _).trans ?_
    cases change with
    | forget id => exact List.filter_sublist.map _
    | refresh id mail identified =>
      have same : ((MailStore.modifyFirst id ({ · with mail := mail }) mails).map fun stored =>
          (stored.elementId, stored.uid)) = mails.map fun stored => (stored.elementId, stored.uid) :=
        MailStore.map_modifyFirst _ fun stored isCopy => Prod.ext (identified.trans isCopy.symm) rfl
      rw [MailChange.onMails, same]

theorem uidStep_applyEvents (reliable : Reliable env)
    (faithfulEvents : ∀ ev ∈ batch.updates, FaithfulEvent env.backend ev) (folders : List FolderInfo)
    (world : World) (folderId : String) :
    UidStep world (applyEvents env folders batch world) folderId := by
  have deleted := @Handles.foldl env _ _ (applyMailSetEntryDelete env folders) id
    (fun world ev => .single (.entryDelete folders ev) trivial world)
  obtain ⟨ops, -, applied⟩ := (deleted (batch.updates.filter isEntryDelete) world).trans
    (.foldl id Handles.mailEvent (batch.updates.filter isMailEvent) _)
  refine .of_stamps ?_ ?_
  · exact (@Advances.foldl folderId _ (StoreOp.apply env) (fun world op => .apply op world) ops world).trans_eq
      (congrArg (·.localStore.nextUid folderId) applied)
  · rw [getFolder_applyEvents reliable faithfulEvents]
    exact stamps_foldl_onMails _ _

section

variable (begins : Begins env batch folders now start)

include begins

theorem Begins.uidStep_deletes (folderId : String) : UidStep now (applyDeletes env batch now) folderId := by
  have atStart : UidStep now start.world folderId :=
    .of_sublist (by rw [begins.localStore]) (by rw [begins.store])
  rw [begins.applyDeletes_eq, begins.creates]
  exact (atStart.trans (uidStep_creates begins.fair.reliable.diskOk folders _ start folderId)).trans
    (uidStep_applyEvents begins.fair.reliable begins.events _ _ folderId)

theorem Begins.uidStep_syncs (folderId : String) :
    UidStep (applyDeletes env batch now) (applyBatch env batch now) folderId := by
  obtain ⟨order, -, applied⟩ := begins.exists_order
  rw [applied]
  refine List.foldlRecOn (motive := fun after : World => UidStep (applyDeletes env batch now) after folderId)
    _ _ (.refl _ _) ?_
  exact fun after step entriesListId _ =>
    step.trans (uidStep_fallbackSync begins.fair.reliable.diskOk begins.fair.reliable.lists entriesListId after folderId)

theorem Begins.uidStep_batch (folderId : String) : UidStep now (applyBatch env batch now) folderId :=
  (begins.uidStep_deletes folderId).trans (begins.uidStep_syncs folderId)

/-- A mail that the batch takes away comes back under a new UID. -/
theorem Begins.renewed_of_gone (gone : TakenOut folders batch folderId id ∨ Forgotten env batch id)
    (fits : (applyBatch env batch now).localStore.nextUid folderId ≤ 2 ^ 32) :
    Renewed (applyBatch env batch now) folderId id (now.localStore.nextUid folderId) := by
  refine (begins.uidStep_syncs folderId).renewed fits (begins.uidStep_deletes folderId).counter ?_
  intro stored mem isMail
  obtain ⟨-, kept⟩ := (begins.holds_iff folderId id).mp ⟨stored, mem, isMail⟩
  exact absurd gone (not_or.mpr kept)

/-- A mail that a create names and its folder has already has a new UID. -/
theorem Begins.renewed_of_created
    (created : Created folders batch folderId id) (held : now.store.Holds folderId id)
    (sound : UidsSound now folderId) (started : 0 < now.localStore.nextUid folderId)
    (fits : (applyBatch env batch now).localStore.nextUid folderId ≤ 2 ^ 32) :
    Renewed (applyBatch env batch now) folderId id (now.localStore.nextUid folderId) := by
  obtain ⟨ev, inBatch, isCreate, found⟩ := created
  obtain ⟨first, second, split⟩ := List.append_of_mem (List.mem_filter.mpr ⟨inBatch, isCreate⟩)
  have fairFirst := begins.fair.of_prefix (split ▸ List.prefix_append first (ev :: second))
  have rest := uidStep_applyEvents begins.fair.reliable begins.events folders (applyCreates env batch now).world folderId
  rw [← begins.applyDeletes_eq] at rest
  replace rest := rest.trans (begins.uidStep_syncs folderId)
  rw [begins.creates, split, List.foldl_append, List.foldl_cons] at rest
  -- `run` is the state in which the create is applied
  have atStart : UidStep now start.world folderId :=
    .of_sublist (by rw [begins.localStore]) (by rw [begins.store])
  have before := atStart.trans (uidStep_creates begins.fair.reliable.diskOk folders first start folderId)
  have heldThere : (first.foldl (applyMailSetEntryCreate env folders) start).world.store.Holds folderId id :=
    (fairFirst.holds_iff folderId id).mpr (.inl (by rwa [begins.store]))
  generalize first.foldl (applyMailSetEntryCreate env folders) start = run at rest before heldThere
  have after := (uidStep_creates begins.fair.reliable.diskOk folders second
    (applyMailSetEntryCreate env folders run ev) folderId).trans rest
  have fitsThere := after.counter.trans fits
  have grows := (uidStep_create begins.fair.reliable.diskOk folders run ev folderId).counter
  refine after.renewed fits (before.counter.trans grows) fun stored mem isMail => before.counter.trans ?_
  exact create_restamps begins.fair.reliable.diskOk found heldThere (before.sound (grows.trans fitsThere) sound started)
    (started.trans_le before.counter) fitsThere stored mem isMail

end

end Restamped

/-- UIDs as they are handed out, and counters that do not wrap. -/
def UidsFit (world twice : World) (folderId : String) : Prop :=
  UidsSound world folderId ∧ 0 < world.localStore.nextUid folderId ∧ twice.localStore.nextUid folderId ≤ 2 ^ 32

/-- A mail that has a new UID after the second delivery shows the difference. -/
theorem not_sameView_of_renewed {world once twice : World} {folderId id : String}
    (first : UidStep world once folderId)
    (later : UidStep once twice folderId) (held : once.store.Holds folderId id) (uids : UidsFit world twice folderId)
    (renewed : UidsSound once folderId → 0 < once.localStore.nextUid folderId →
      Renewed twice folderId id (once.localStore.nextUid folderId)) : ¬ SameView twice once := by
  intro same
  obtain ⟨stored, mem, isMail⟩ := held
  obtain ⟨sound, started, fits⟩ := uids
  have onceSound := first.sound (later.counter.trans fits) sound started
  have shown : (stored.mail, stored.uid) ∈ entries once folderId := List.mem_map.mpr ⟨stored, mem, rfl⟩
  rw [← same.folders] at shown
  obtain ⟨again, againMember, equal⟩ := List.mem_map.mp shown
  have sameMail : again.mail = stored.mail := congrArg Prod.fst equal
  have sameUid : again.uid = stored.uid := congrArg Prod.snd equal
  have fresh := renewed onceSound (started.trans_le first.counter) again againMember
    (by rw [StoredMail.elementId, sameMail]; exact isMail)
  have old := onceSound.below stored mem
  omega

theorem listingBackend_steady (folders : List FolderInfo) (mails : List Mail) :
    Steady (listingBackend folders mails) :=
  ⟨fun _ _ => rfl, fun _ _ _ => rfl, fun _ _ => rfl, fun _ _ => rfl, fun _ _ => rfl⟩

/-- A mail that arrives and is deleted again. -/
def passage : EntityUpdateBatch :=
  ⟨"b1", "mailGroup", [entryEvent "entries" .create, entryEvent "entries" .delete]⟩

end TutaBridge.Runs
