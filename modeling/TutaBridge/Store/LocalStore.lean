import Mathlib.Data.List.Sort
import TutaBridge.Std.Table

/-!
# The on-disk store

`LocalStore` is the encrypted database and the directory of `.eml.enc` files.
Each method is the effect of the call when it succeeds; that a call may fail
instead is added once, where a call is made. Encryption at rest is not part of
the state: a file is the text that was written to it.
-/

namespace TutaBridge.Store

open TutaBridge.Std

/-- What a store call fails with. -/
inductive StoreError where
  | db
  | io
  | crypto
  | serde
deriving DecidableEq, Repr

/-- `SCHEMA_VERSION` of this build. -/
def schemaVersion : String := "4"

/-- A row of `mails`. -/
structure MailMetadata where
  listId : String
  elementId : String
  folderId : String
  subject : String
  senderName : String
  senderAddress : String
  receivedDateMs : Nat
  unread : Bool
  hasDetails : Bool
  uid : Nat
  mailJson : String
deriving DecidableEq, Repr

/-- A row of `sync_state`, which holds a folder's UID counter. -/
structure SyncState where
  folderId : String
  lastSyncMs : Nat
  nextUid : Nat
deriving DecidableEq, Repr

/-- A row of `event_bus_state`. -/
structure EventBusState where
  groupId : String
  lastBatchId : String
  updatedAtMs : Nat
deriving DecidableEq, Repr

/-- The tables of the database and the body files. `mail_fts` has no key. -/
structure LocalStore where
  mails : Table String MailMetadata MailMetadata.elementId
  syncState : Table String SyncState SyncState.folderId
  eventBusState : Table String EventBusState EventBusState.groupId
  storeMeta : Dict String String
  mailFts : List (String × String)
  emls : Dict String String
deriving DecidableEq

namespace LocalStore

/-- The state before the first `open`: no file on disk. -/
def blank : LocalStore := ⟨.empty, .empty, .empty, .empty, [], .empty⟩

/-- `LocalStore::open` of a build with the given schema version: another stored
version drops the cache tables, but neither `store_meta` nor the body files. -/
def «open» (version : String) (disk : LocalStore) : LocalStore :=
  let migrated :=
    if disk.storeMeta.get? "schema_version" ≠ some version then
      { disk with mails := .empty, syncState := .empty, eventBusState := .empty, mailFts := [] }
    else disk
  { migrated with storeMeta := migrated.storeMeta.set "schema_version" version }

/-- `reset`, of a build with the given schema version. The event-bus cursors are not among the tables it
empties. -/
def reset (version : String) (store : LocalStore) : LocalStore :=
  { store with
    mails := .empty
    syncState := .empty
    storeMeta := Dict.set .empty "schema_version" version
    mailFts := []
    emls := .empty }

/-- A value of the `meta` table. -/
def getMeta (store : LocalStore) (key : String) : Option String := store.storeMeta.get? key

def setMeta (key value : String) (store : LocalStore) : LocalStore :=
  { store with storeMeta := store.storeMeta.set key value }

/-- The rows of a folder, newest first. -/
def loadFolderMetadata (store : LocalStore) (folderId : String) : List MailMetadata :=
  (store.mails.rows.filter fun row => row.folderId = folderId).insertionSort
    fun left right => right.receivedDateMs ≤ left.receivedDateMs

/-- The columns `ON CONFLICT(element_id)` overwrites. Neither `uid` nor
`list_id` is among them. -/
def conflictColumns (metadata : MailMetadata) (old : MailMetadata) : MailMetadata :=
  { old with
    folderId := metadata.folderId
    subject := metadata.subject
    senderName := metadata.senderName
    senderAddress := metadata.senderAddress
    receivedDateMs := metadata.receivedDateMs
    unread := metadata.unread
    hasDetails := metadata.hasDetails
    mailJson := metadata.mailJson }

theorem conflictColumns_key (metadata old : MailMetadata) (same : old.elementId = metadata.elementId) :
    (conflictColumns metadata old).elementId = metadata.elementId := same

/-- Write one row over an older one. -/
def upsertMailMetadata (metadata : MailMetadata) (store : LocalStore) : LocalStore :=
  { store with
    mails := store.mails.upsert metadata (conflictColumns metadata) (conflictColumns_key metadata) }

/-- The statement of the batch keeps a set `has_details`. -/
def conflictColumnsBatch (metadata : MailMetadata) (old : MailMetadata) : MailMetadata :=
  { conflictColumns metadata old with hasDetails := if metadata.hasDetails then true else old.hasDetails }

theorem conflictColumnsBatch_key (metadata old : MailMetadata) (same : old.elementId = metadata.elementId) :
    (conflictColumnsBatch metadata old).elementId = metadata.elementId := same

/-- One row of the batch. -/
def upsertBatchRow (metadata : MailMetadata) (mails : Table String MailMetadata
    MailMetadata.elementId) : Table String MailMetadata MailMetadata.elementId :=
  mails.upsert metadata (conflictColumnsBatch metadata) (conflictColumnsBatch_key metadata)

/-- Write the rows, each over an older one. -/
def upsertMailMetadataBatch (metas : List MailMetadata) (store : LocalStore) : LocalStore :=
  { store with mails := metas.foldl (fun mails metadata => upsertBatchRow metadata mails) store.mails }

/-- `SELECT next_uid`, which is 1 for a folder without a counter. -/
def nextUid (store : LocalStore) (folderId : String) : Nat :=
  ((store.syncState.find? folderId).map SyncState.nextUid).getD 1

/-- The loop of `allocate_folder_uids`: `next as u32` is stamped on each id in
turn. -/
def assignUids (map : Dict String Nat) (next : Nat) : List String → Dict String Nat
  | [] => map
  | elementId :: rest => assignUids (map.set elementId (next % 2 ^ 32)) (next + 1) rest

/-- Assign UIDs to new element ids and advance the folder's counter. -/
def allocateFolderUids (folderId : String) (newElementIds : List String) (store : LocalStore) :
    Dict String Nat × LocalStore :=
  let next := store.nextUid folderId
  let advanced := next + newElementIds.length
  (assignUids .empty next newElementIds,
    { store with
      syncState := store.syncState.upsert ⟨folderId, 0, advanced⟩
        (fun old => { old with nextUid := advanced }) fun _ same => same })

/-- Delete the rows of a folder whose ids are not listed, and return their ids. -/
def deleteMailsNotIn (folderId : String) (elementIds : List String) (store : LocalStore) :
    List String × LocalStore :=
  let existing := (store.mails.rows.filter fun row => row.folderId = folderId).map MailMetadata.elementId
  let deleted := existing.filter fun id => id ∉ elementIds
  (deleted, { store with mails := store.mails.delete fun row => row.elementId ∈ deleted })

/-- The body of the mail is on the disk. -/
def markHasDetails (elementId : String) (store : LocalStore) : LocalStore :=
  { store with
    mails := store.mails.update
      (fun row => if row.elementId = elementId then { row with hasDetails := true } else row)
      (fun row => by split <;> rfl) }

def writeEml (elementId rfc2822 : String) (store : LocalStore) : LocalStore :=
  { store with emls := store.emls.set elementId rfc2822 }

def readEml (elementId : String) (store : LocalStore) : Option String := store.emls.get? elementId

def hasEml (store : LocalStore) (elementId : String) : Bool := (store.emls.get? elementId).isSome

def deleteEml (elementId : String) (store : LocalStore) : LocalStore :=
  { store with emls := store.emls.erase elementId }

/-- Take the body out of the full-text index. -/
def unindexBody (elementId : String) (store : LocalStore) : LocalStore :=
  { store with mailFts := store.mailFts.filter fun row => row.1 ≠ elementId }

/-- FTS5 has no upsert: the earlier row of the id is deleted first. -/
def indexBody (elementId bodyText : String) (store : LocalStore) : LocalStore :=
  let cleared := store.unindexBody elementId
  { cleared with mailFts := cleared.mailFts ++ [(elementId, bodyText)] }

def loadEventBusState (store : LocalStore) : Dict String String :=
  store.eventBusState.rows.foldl (fun out row => out.set row.groupId row.lastBatchId) .empty

def clearEventBusState (store : LocalStore) : LocalStore :=
  { store with eventBusState := .empty }

/-- Store the cursor of a group. -/
def setEventBusBatchId (groupId batchId : String) (nowMs : Nat) (store : LocalStore) : LocalStore :=
  { store with
    eventBusState := store.eventBusState.upsert ⟨groupId, batchId, nowMs⟩
      (fun old => { old with lastBatchId := batchId, updatedAtMs := nowMs }) fun _ same => same }

/-- `UPDATE mails` of the per-mail fields; folder, UID and date stay. -/
def refreshMailFields (elementId subject senderName senderAddress : String) (unread : Bool)
    (mailJson : String) (store : LocalStore) : LocalStore :=
  { store with
    mails := store.mails.update (fun row =>
        if row.elementId = elementId then
          { row with
            subject := subject
            senderName := senderName
            senderAddress := senderAddress
            unread := unread
            mailJson := mailJson }
        else row)
      (fun row => by split <;> rfl) }

/-- Drop every row of a folder and return the ids that were there. -/
def deleteFolderMails (folderId : String) (store : LocalStore) : List String × LocalStore :=
  ((store.mails.rows.filter fun row => row.folderId = folderId).map MailMetadata.elementId,
    { store with mails := store.mails.delete fun row => row.folderId = folderId })

/-- The first statement of `delete_mail`; `delete_eml` and `unindex_body`
follow it. -/
def deleteMailRow (elementId : String) (store : LocalStore) : LocalStore :=
  { store with mails := store.mails.delete fun row => row.elementId = elementId }

/-! ## What each statement does to a row -/

@[simp] theorem find?_upsertMailMetadata (metadata : MailMetadata) (store : LocalStore) (id : String) :
    (store.upsertMailMetadata metadata).mails.find? id =
      if id = metadata.elementId then
        some ((store.mails.find? id).elim metadata (conflictColumns metadata))
      else store.mails.find? id :=
  Table.find?_upsert _ _ _ (conflictColumns_key metadata) _

@[simp] theorem find?_markHasDetails (elementId : String) (store : LocalStore) (id : String) :
    (store.markHasDetails elementId).mails.find? id = (store.mails.find? id).map fun row =>
        if row.elementId = elementId then { row with hasDetails := true } else row := by
  simp [markHasDetails]

@[simp] theorem find?_deleteMailRow (elementId : String) (store : LocalStore) (id : String) :
    (store.deleteMailRow elementId).mails.find? id =
      if id = elementId then none else store.mails.find? id := by
  cases found : store.mails.find? id with
  | none => simp [deleteMailRow, found]
  | some row =>
    have rowKey : row.elementId = id := Table.key_of_find? found
    by_cases same : id = elementId
    · subst same
      simp [deleteMailRow, found, rowKey, Option.filter]
    · simp [deleteMailRow, found, rowKey, same, Option.filter]

theorem mem_deleteMailsNotIn_iff {folderId : String} {elementIds : List String} {store : LocalStore} {id : String} :
    id ∈ (store.deleteMailsNotIn folderId elementIds).1 ↔
      id ∉ elementIds ∧ ∃ row, store.mails.find? id = some row ∧ row.folderId = folderId := by
  simp only [deleteMailsNotIn, List.mem_filter, List.mem_map, decide_eq_true_eq, Table.find?_eq_some_iff]
  constructor
  · rintro ⟨⟨row, ⟨mem, inFolder⟩, rowKey⟩, unlisted⟩
    exact ⟨unlisted, row, ⟨mem, rowKey⟩, inFolder⟩
  · rintro ⟨unlisted, row, ⟨mem, rowKey⟩, inFolder⟩
    exact ⟨⟨row, ⟨mem, inFolder⟩, rowKey⟩, unlisted⟩

/-- The prune of a full sync drops exactly the folder's unlisted rows. -/
@[simp] theorem find?_deleteMailsNotIn (folderId : String) (elementIds : List String)
    (store : LocalStore) (id : String) : (store.deleteMailsNotIn folderId elementIds).2.mails.find? id =
      (store.mails.find? id).filter fun row => row.folderId ≠ folderId ∨ id ∈ elementIds := by
  change (store.mails.delete fun row =>
    decide (row.elementId ∈ (store.deleteMailsNotIn folderId elementIds).1)).find? id = _
  rw [Table.find?_delete]
  cases found : store.mails.find? id with
  | none => rfl
  | some row =>
    have rowKey : row.elementId = id := Table.key_of_find? found
    have kept : id ∉ (store.deleteMailsNotIn folderId elementIds).1 ↔
        (row.folderId ≠ folderId ∨ id ∈ elementIds) := by
      rw [mem_deleteMailsNotIn_iff, found]
      simp only [Option.some.injEq, exists_eq_left']
      tauto
    simp only [Option.filter_some, rowKey, ← decide_not, decide_eq_true_eq, kept]

@[simp] theorem find?_deleteFolderMails (folderId : String) (store : LocalStore) (id : String) :
    (store.deleteFolderMails folderId).2.mails.find? id =
      (store.mails.find? id).filter fun row => row.folderId ≠ folderId := by
  simp [deleteFolderMails]

@[simp] theorem find?_refreshMailFields (elementId subject senderName senderAddress : String)
    (unread : Bool) (mailJson : String) (store : LocalStore) (id : String) :
    (store.refreshMailFields elementId subject senderName senderAddress unread mailJson).mails.find? id =
      (store.mails.find? id).map fun row =>
        if row.elementId = elementId then
          { row with
            subject := subject
            senderName := senderName
            senderAddress := senderAddress
            unread := unread
            mailJson := mailJson }
        else row := by
  simp [refreshMailFields]

/-! ## UID allocation -/

/-- A UID handed out by the loop is the counter value at the position of its id,
so different ids never share a counter value. -/
theorem get?_assignUids {map : Dict String Nat} {next uid : Nat} {ids : List String} {id : String}
    (found : (assignUids map next ids).get? id = some uid) : (id ∉ ids ∧ map.get? id = some uid) ∨
      ∃ index, ids[index]? = some id ∧ uid = (next + index) % 2 ^ 32 := by
  induction ids generalizing map next with
  | nil => exact .inl ⟨by simp, found⟩
  | cons head rest ih =>
    rcases ih found with ⟨absent, earlier⟩ | ⟨index, atIndex, uidEq⟩
    · rw [Dict.get?_set] at earlier
      by_cases same : id = head
      · subst same
        rw [if_pos rfl] at earlier
        exact .inr ⟨0, rfl, by simpa using (Option.some.inj earlier).symm⟩
      · rw [if_neg same] at earlier
        exact .inl ⟨by simp [same, absent], earlier⟩
    · refine .inr ⟨index + 1, by simpa using atIndex, ?_⟩
      rw [uidEq]
      congr 1
      omega

/-- Every id that was asked for gets a UID. -/
theorem isSome_get?_assignUids (map : Dict String Nat) (next : Nat) {ids : List String}
    {id : String} (asked : id ∈ ids ∨ (map.get? id).isSome) : ((assignUids map next ids).get? id).isSome := by
  induction ids generalizing map next with
  | nil => simpa [assignUids] using asked
  | cons head rest ih =>
    apply ih
    rw [Dict.get?_set]
    by_cases same : id = head
    · simp [same]
    · simpa [same] using asked

@[simp] theorem nextUid_allocateFolderUids (folderId other : String) (ids : List String)
    (store : LocalStore) :
    (store.allocateFolderUids folderId ids).2.nextUid other =
      if other = folderId then store.nextUid folderId + ids.length else store.nextUid other := by
  by_cases same : other = folderId
  · subst same
    cases found : store.syncState.find? other <;>
      simp [allocateFolderUids, nextUid, Table.find?_upsert, found]
  · simp [allocateFolderUids, nextUid, Table.find?_upsert, same]

/-! ## Rows, body files and index rows -/

/-- Whether the mail has a row. -/
def hasRow (store : LocalStore) (elementId : String) : Bool := (store.mails.find? elementId).isSome

/-- Whether the index has a row of the mail. -/
def indexed (store : LocalStore) (elementId : String) : Prop :=
  ∃ row ∈ store.mailFts, row.1 = elementId

instance (store : LocalStore) (elementId : String) : Decidable (store.indexed elementId) :=
  inferInstanceAs (Decidable (∃ row ∈ store.mailFts, row.1 = elementId))

section Bodies

variable (elementId other text : String) (store : LocalStore)

@[simp] theorem hasRow_markHasDetails :
    (store.markHasDetails elementId).hasRow other = store.hasRow other := by simp [hasRow]

@[simp] theorem hasRow_upsertMailMetadata (metadata : MailMetadata) :
    (store.upsertMailMetadata metadata).hasRow other =
      (decide (other = metadata.elementId) || store.hasRow other) := by
  by_cases same : other = metadata.elementId <;> simp [hasRow, same]

@[simp] theorem hasRow_deleteMailRow : (store.deleteMailRow elementId).hasRow other =
      (!decide (other = elementId) && store.hasRow other) := by
  by_cases same : other = elementId <;> simp [hasRow, same]

@[simp] theorem hasRow_writeEml : (store.writeEml elementId text).hasRow other = store.hasRow other := rfl

@[simp] theorem hasRow_deleteEml : (store.deleteEml elementId).hasRow other = store.hasRow other := rfl

@[simp] theorem hasRow_unindexBody : (store.unindexBody elementId).hasRow other = store.hasRow other := rfl

@[simp] theorem hasRow_indexBody : (store.indexBody elementId text).hasRow other = store.hasRow other := rfl

@[simp] theorem hasEml_writeEml :
    (store.writeEml elementId text).hasEml other = (decide (other = elementId) || store.hasEml other) := by
  by_cases same : other = elementId <;> simp [hasEml, writeEml, same]

@[simp] theorem hasEml_deleteEml :
    (store.deleteEml elementId).hasEml other = (!decide (other = elementId) && store.hasEml other) := by
  by_cases same : other = elementId <;> simp [hasEml, deleteEml, same]

@[simp] theorem hasEml_deleteMailRow :
    (store.deleteMailRow elementId).hasEml other = store.hasEml other := rfl

@[simp] theorem hasEml_markHasDetails :
    (store.markHasDetails elementId).hasEml other = store.hasEml other := rfl

@[simp] theorem hasEml_unindexBody : (store.unindexBody elementId).hasEml other = store.hasEml other := rfl

@[simp] theorem hasEml_indexBody : (store.indexBody elementId text).hasEml other = store.hasEml other := rfl

@[simp] theorem indexed_unindexBody :
    (store.unindexBody elementId).indexed other ↔ other ≠ elementId ∧ store.indexed other := by
  simp only [indexed, unindexBody, List.mem_filter, decide_eq_true_eq]
  constructor
  · rintro ⟨row, ⟨mem, different⟩, rfl⟩
    exact ⟨different, row, mem, rfl⟩
  · rintro ⟨different, row, mem, rfl⟩
    exact ⟨row, ⟨mem, different⟩, rfl⟩

@[simp] theorem indexed_indexBody :
    (store.indexBody elementId text).indexed other ↔ other = elementId ∨ store.indexed other := by
  have cleared := indexed_unindexBody elementId other store
  simp only [indexed] at cleared
  simp only [indexed, indexBody, List.mem_append, List.mem_singleton, or_and_right, exists_or,
    exists_eq_left, cleared]
  by_cases same : other = elementId
  · simp [same]
  · simp [same, Ne.symm same]

@[simp] theorem indexed_writeEml :
    (store.writeEml elementId text).indexed other ↔ store.indexed other := Iff.rfl

@[simp] theorem indexed_deleteEml : (store.deleteEml elementId).indexed other ↔ store.indexed other := Iff.rfl

@[simp] theorem indexed_deleteMailRow :
    (store.deleteMailRow elementId).indexed other ↔ store.indexed other := Iff.rfl

@[simp] theorem indexed_markHasDetails :
    (store.markHasDetails elementId).indexed other ↔ store.indexed other := Iff.rfl

end Bodies

end LocalStore

end TutaBridge.Store
