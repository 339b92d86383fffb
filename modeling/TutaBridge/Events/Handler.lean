import TutaBridge.Sync.Folder
import TutaBridge.Tuta.MailSetEntryId

/-!
# The event handler

A batch of entity updates is split into buckets and applied to both stores:
`MailSetEntry` creates first, so that a move can clone the mail from the folder
it leaves, then `MailSetEntry` deletes, then `Mail` updates and deletes, and at
last a full sync of every folder a create could not be applied to. Then the
group's cursor is advanced.
-/

namespace TutaBridge.Events

open TutaBridge.Std Tuta Store Bridge Sync

variable (env : Env)

/-- `TUTANOTA_APP`. -/
def tutanotaApp : String := "tutanota"

/-- `MAIL_TYPE_ID`. -/
def mailTypeId : Int := 97

/-- `MAIL_SET_ENTRY_TYPE_ID`. -/
def mailSetEntryTypeId : Int := 1450

/-- `MAIL_SET_TYPE_ID`. -/
def mailSetTypeId : Int := 429

/-- The mail-relevant updates of a batch, each bucket in batch order. -/
structure Bucketed where
  mailSetEntryCreates : List EntityUpdateEvent
  mailSetEntryDeletes : List EntityUpdateEvent
  mailCreates : List EntityUpdateEvent
  mailEvents : List EntityUpdateEvent
  folderListDirty : Bool
deriving DecidableEq, Repr

/-- The loop body of `bucket_updates`. -/
def bucket (out : Bucketed) (ev : EntityUpdateEvent) : Bucketed :=
  if ev.application ≠ tutanotaApp then out
  else if ev.typeId = mailSetEntryTypeId then
    match ev.operation with
    | .create => { out with mailSetEntryCreates := out.mailSetEntryCreates ++ [ev] }
    | .delete => { out with mailSetEntryDeletes := out.mailSetEntryDeletes ++ [ev] }
    | _ => out
  else if ev.typeId = mailTypeId then
    match ev.operation with
    | .create => { out with mailCreates := out.mailCreates ++ [ev] }
    | _ => { out with mailEvents := out.mailEvents ++ [ev] }
  else if ev.typeId = mailSetTypeId then { out with folderListDirty := true }
  else out

/-- The updates of a batch by what they are about. -/
def bucketUpdates (updates : List EntityUpdateEvent) : Bucketed :=
  updates.foldl bucket ⟨[], [], [], [], false⟩

/-- A mail decrypted from a `Mail` CREATE, with its details when they were
bundled. -/
structure PendingMail where
  mail : Mail
  details : Option MailDetails
deriving DecidableEq, Repr

/-- The local variables of `apply_batch` that its create loop changes. -/
structure BatchRun where
  world : World
  pending : Dict String PendingMail
  fallbackFolders : List String
deriving DecidableEq

/-- `folder_by_entries.get`: of two folders with one entries list, the hash map
keeps the last. -/
def folderByEntries (folders : List FolderInfo) (entriesListId : String) : Option FolderInfo :=
  (folders.filter fun folder => folder.entriesListId = entriesListId).getLast?

/-- Allocate a fresh UID in the target folder, stamp it on the mail, and upsert
the row and the folder entry. -/
def assignUidAndUpsert (target : FolderInfo) (mailEid : String) (stored : StoredMail)
    (world : World) : World :=
  let allocated := world.call env (LocalStore.allocateFolderUids target.id [mailEid])
  let uid := match allocated.1 with
    | .ok uids => (uids.get? mailEid).getD 0
    | .error _ => 0
  let stamped := { stored with uid := uid }
  let metadata := mailToMetadata env.codec stamped.mail target.id uid
  (allocated.2.write env (·.upsertMailMetadata metadata)).mapStore (·.upsertMailInFolder target.id stamped)

/-- The rendering of an inlined mail: none without details, and none with
attachments, whose bytes the handler does not have. -/
def inlineRfc2822 (rendering : Rendering) (pending : PendingMail) : Option String :=
  pending.details.bind fun details =>
    if pending.mail.attachments.isEmpty then
      some (rendering.mailToRfc2822 pending.mail (some details) [])
    else none

/-- Write an inlined body to disk and put it into the body cache. -/
def persistInlineBody (mailEid : String) (details : Option MailDetails) (eml : String)
    (world : World) : World :=
  let written := world.writeAll env [(·.writeEml mailEid eml), (·.markHasDetails mailEid)]
  written.mapStore fun store =>
    { store with bodies := store.bodies.insert mailEid ⟨details, eml⟩ }

/-- The HIT-FROM-BATCH path. -/
def applyInlineCreate (target : FolderInfo) (mailEid : String) (pending : PendingMail)
    (world : World) : World :=
  let rfc2822 := inlineRfc2822 env.rendering pending
  let stored : StoredMail :=
    { mail := pending.mail
      bodyLoaded := rfc2822.isSome
      uid := 0
      attachmentsPending := false }
  let persisted := match rfc2822 with
    | none => world
    | some eml => persistInlineBody env mailEid pending.details eml world
  assignUidAndUpsert env target mailEid stored persisted

/-- The mail an entry refers to, from its inlined payload. -/
def resolveMailSetEntry (ev : EntityUpdateEvent) (world : World) : Option IdTuple × World :=
  match ev.inlined with
  | none => (none, world)
  | some json =>
    let answer := world.ask fun tick => env.backend.decryptInlineMailSetEntry tick json
    match answer.1 with
    | .ok (some entry) => (some entry.mail, answer.2)
    | _ => (none, answer.2)

/-- Queue a full sync of the folder the event names. -/
def BatchRun.fallBack (run : BatchRun) (ev : EntityUpdateEvent) : BatchRun :=
  { run with fallbackFolders := run.fallbackFolders.insert ev.instanceListId }

/-- The MISS path: load the one mail from the server. -/
def applyMissedCreate (target : FolderInfo) (run : BatchRun) (ev : EntityUpdateEvent) :
    BatchRun :=
  let resolved := resolveMailSetEntry env ev run.world
  match resolved.1 with
  | none => { run with world := resolved.2 }.fallBack ev
  | some id =>
    let answer := resolved.2.ask fun tick => env.backend.loadMail tick id.listId id.elementId
    match answer.1 with
    | .ok (some mail) =>
      let stored : StoredMail :=
        { mail := mail, bodyLoaded := false, uid := 0, attachmentsPending := false }
      { run with world := assignUidAndUpsert env target id.elementId stored answer.2 }
    | .ok none => { run with world := answer.2 }
    | .error _ => { run with world := answer.2 }.fallBack ev

/-- Where `find_mail_anywhere` looks, in its iteration order. -/
def locate (world : World) (mailEid : String) : Option (String × StoredMail) :=
  world.store.findMailAnywhere (env.hashOrder world.tick world.store.folders.keys) mailEid

/-- A mail appears in a folder. -/
def applyMailSetEntryCreate (folders : List FolderInfo) (run : BatchRun)
    (ev : EntityUpdateEvent) : BatchRun :=
  match MailSetEntryId.deconstruct ev.instanceId with
  | .error _ => run.fallBack ev
  | .ok (_, mailEid) =>
    match folderByEntries folders ev.instanceListId with
    | none => run.fallBack ev
    | some target =>
      match locate env run.world mailEid with
      | some (_, stored) =>
        { run with world := assignUidAndUpsert env target mailEid stored run.world }
      | none =>
        match run.pending.get? mailEid with
        | some pending =>
          { run with
            world := applyInlineCreate env target mailEid pending run.world
            pending := run.pending.erase mailEid }
        | none => applyMissedCreate env target run ev

/-- A mail leaves a folder. -/
def applyMailSetEntryDelete (folders : List FolderInfo) (world : World)
    (ev : EntityUpdateEvent) : World :=
  match MailSetEntryId.deconstruct ev.instanceId with
  | .error _ => world
  | .ok (_, mailEid) =>
    match folderByEntries folders ev.instanceListId with
    | none => world
    | some source =>
      let removed := world.mapStore fun store =>
        (store.removeMailFromFolder source.id mailEid).2
      if removed.store.isMailAnywhere mailEid then removed
      else removed.deleteMail env mailEid

/-- The REST half of `resolve_mail`, which turns a failed request into `none`. -/
def loadUpdatedMail (ev : EntityUpdateEvent) (world : World) : Option Mail × World :=
  let answer := world.ask fun tick => env.backend.loadMail tick ev.instanceListId ev.instanceId
  match answer.1 with
  | .ok mail => (mail, answer.2)
  | .error _ => (none, answer.2)

/-- Decrypt the inlined mail, or else load it. -/
def resolveMail (ev : EntityUpdateEvent) (world : World) : Option Mail × World :=
  match ev.inlined with
  | none => loadUpdatedMail env ev world
  | some json =>
    let answer := world.ask fun tick => env.backend.decryptInlineMail tick json
    match answer.1 with
    | .ok (some mail) => (some mail, answer.2)
    | _ => loadUpdatedMail env ev answer.2

/-- Drop a mail from the disk and from every folder. -/
def forgetMail (mailEid : String) (world : World) : World :=
  (world.deleteMail env mailEid).mapStore (·.removeMailEverywhere mailEid)

/-- Store a new version of a mail. -/
def refreshMail (instanceId : String) (mail : Mail) (world : World) : World :=
  (world.mapStore (·.refreshMailInPlace mail)).write env
    (·.refreshMailFields instanceId mail.subject mail.sender.name mail.sender.address mail.unread
      (env.codec.toJson mail))

/-- A mail is changed or deleted. -/
def applyMailEvent (world : World) (ev : EntityUpdateEvent) : World :=
  match ev.operation with
  | .delete => forgetMail env ev.instanceId world
  | .update =>
    let resolved := resolveMail env ev world
    match resolved.1 with
    | some mail => refreshMail env ev.instanceId mail resolved.2
    | none => forgetMail env ev.instanceId resolved.2
  | _ => world

/-- The loop body of `predecrypt_mail_creates`. -/
def predecryptMailCreate (state : Dict String PendingMail × World)
    (ev : EntityUpdateEvent) : Dict String PendingMail × World :=
  match ev.inlined with
  | none => state
  | some json =>
    let answer := state.2.ask fun tick => env.backend.decryptInlineMail tick json
    match answer.1 with
    | .ok (some mail) =>
      match ev.blobInstance with
      | none => (state.1.set ev.instanceId ⟨mail, none⟩, answer.2)
      | some blobJson =>
        let blob := answer.2.ask fun tick =>
          env.backend.decryptInlineMailDetailsBlob tick blobJson
        match blob.1 with
        | .ok details => (state.1.set ev.instanceId ⟨mail, details⟩, blob.2)
        | .error _ => (state.1.set ev.instanceId ⟨mail, none⟩, blob.2)
    | _ => (state.1, answer.2)

/-- The mails that are inlined in the batch. -/
def predecryptMailCreates (events : List EntityUpdateEvent) (world : World) :
    Dict String PendingMail × World :=
  events.foldl (predecryptMailCreate env) (.empty, world)

/-- Drop the rows and body files of a folder that is gone. -/
def dropFolder (world : World) (folderId : String) : World :=
  let dropped := world.call env (LocalStore.deleteFolderMails folderId)
  match dropped.1 with
  | .error _ => dropped.2
  | .ok ids => ids.foldl (fun world id => world.write env (·.deleteEml id)) dropped.2

def refreshFolderList (world : World) : World :=
  let answer := world.ask env.backend.listFolders
  match answer.1 with
  | .error _ => answer.2
  | .ok folders =>
    let listed := answer.2.mapStore (·.setFolderList folders)
    let pruned := listed.store.pruneUnknownFolders (folders.map FolderInfo.id)
    pruned.1.foldl (dropFolder env) { listed with store := pruned.2 }

/-- The full sync of a folder that could not be handled precisely. -/
def fallbackSync (folders : List FolderInfo) (world : World) (entriesListId : String) : World :=
  match folderByEntries folders entriesListId with
  | none => world
  | some folder => (syncFolder env folder world).2

/-- The state `apply_batch` starts its loops from: the folder list refreshed and
the inlined mails decrypted. -/
def beginBatch (bucketed : Bucketed) (world : World) : BatchRun :=
  let refreshed := if bucketed.folderListDirty then refreshFolderList env world else world
  let predecrypted := predecryptMailCreates env bucketed.mailCreates refreshed
  ⟨predecrypted.2, predecrypted.1, []⟩

/-- `apply_batch` up to the end of its create loop. -/
def applyCreates (batch : EntityUpdateBatch) (world : World) : BatchRun :=
  let bucketed := bucketUpdates batch.updates
  let start := beginBatch env bucketed world
  bucketed.mailSetEntryCreates.foldl (applyMailSetEntryCreate env start.world.store.folderList) start

/-- The folders `apply_batch` knows: the list it reads after the refresh. -/
def batchFolders (batch : EntityUpdateBatch) (world : World) : List FolderInfo :=
  (beginBatch env (bucketUpdates batch.updates) world).world.store.folderList

/-- The loops over the `MailSetEntry` deletes and the `Mail` events. -/
def applyDeletes (batch : EntityUpdateBatch) (world : World) : World :=
  let bucketed := bucketUpdates batch.updates
  let deleted := bucketed.mailSetEntryDeletes.foldl
    (applyMailSetEntryDelete env (batchFolders env batch world)) (applyCreates env batch world).world
  bucketed.mailEvents.foldl (applyMailEvent env) deleted

/-- Creates before deletes, and the syncs last. -/
def applyBatch (batch : EntityUpdateBatch) (world : World) : World :=
  let updated := applyDeletes env batch world
  let fallbackFolders := (applyCreates env batch world).fallbackFolders
  (env.hashOrder updated.tick fallbackFolders).foldl (fallbackSync env (batchFolders env batch world)) updated

/-- Record the batch as the last processed one of its group. -/
def advanceCursor (batch : EntityUpdateBatch) (world : World) : World :=
  { world with lastBatchIds := world.lastBatchIds.set batch.groupId batch.batchId }.write env
    (·.setEventBusBatchId batch.groupId batch.batchId (env.now world.tick))

/-- A batch is applied, and then its cursor is stored. -/
def process (world : World) (msg : EventBusMessage) : World :=
  match msg with
  | .entityUpdate batch => advanceCursor env batch (applyBatch env batch world)
  | _ => world

/-! ## The fixtures of the handler's tests -/

/-- Tuta, unreachable except for the folder list. -/
def offlineBackend (folders : List FolderInfo) : MailBackend where
  loadMailIdsForFolder _ _ := .error "offline"
  loadMail _ _ _ := .error "offline"
  decryptInlineMail _ _ := .error "offline"
  decryptInlineMailSetEntry _ _ := .error "offline"
  decryptInlineMailDetailsBlob _ _ := .error "offline"
  loadMailDetails _ _ := .error "offline"
  loadAttachments _ _ := .error (.transport .restClient)
  listFolders _ := .ok folders

/-- Tuta, answering with one list of mails for every folder and for every id with
the listed mail of that id. An inlined entry is the id of its mail. -/
def listingBackend (folders : List FolderInfo) (mails : List Mail) : MailBackend :=
  { offlineBackend folders with
    loadMailIdsForFolder := fun _ _ => .ok mails
    decryptInlineMailSetEntry := fun _ json => .ok (some ⟨⟨"list1", json⟩⟩)
    loadMail := fun _ _ elementId => .ok (mails.find? fun mail => mail.elementId = some elementId) }

/-- The same, with an empty body for every mail. -/
def servingBackend (folders : List FolderInfo) (mails : List Mail) : MailBackend :=
  { listingBackend folders mails with
    loadMailDetails := fun _ _ => .ok (some { body := ⟨none, none⟩ })
    loadAttachments := fun _ _ => .ok [] }

/-- A codec that keeps of a mail its element id, behind a mark that tells an
absent id from an empty one. -/
def idCodec : MailCodec where
  toJson mail := match mail.elementId with
    | none => ""
    | some elementId => String.ofList ('#' :: elementId.toList)
  fromJson json :=
    some
      { id := match json.toList with
          | [] => none
          | _ :: elementId => some ⟨"", String.ofList elementId⟩
        subject := ""
        sender := ⟨"", ""⟩
        receivedDate := 0
        unread := true
        attachments := [] }

/-- A working disk and an iteration in insertion order. -/
def quietEnv (backend : MailBackend) : Env where
  backend := backend
  codec := idCodec
  rendering := ⟨fun mail _ _ => mail.subject, id, id⟩
  diskFault _ := none
  hashOrder _ keys := keys
  hashOrder_perm _ keys := List.Perm.refl keys
  now tick := tick

theorem idCodec_keepsElementIds : idCodec.KeepsElementIds := by
  intro mail
  refine ⟨_, rfl, ?_⟩
  cases found : mail.id with
  | none => simp [idCodec, Mail.elementId, found]
  | some id => simp [idCodec, Mail.elementId, found]

theorem quietEnv_diskOk (backend : MailBackend) : (quietEnv backend).DiskOk := fun _ => rfl

/-- The mail fixture: everything but the element id is the same. -/
def sampleMail (elementId : String) : Mail where
  id := some ⟨"list1", elementId⟩
  subject := "Subject"
  sender := ⟨"Sender", "sender@tuta.com"⟩
  receivedDate := 1735130245000
  unread := true
  attachments := []

def sampleStored (elementId : String) (uid : Nat) : StoredMail :=
  { mail := sampleMail elementId, bodyLoaded := false, uid := uid, attachmentsPending := false }

def sampleFolder (id entriesListId : String) : FolderInfo where
  id := id
  listId := "folders"
  entriesListId := entriesListId
  kind := .custom
  imapPath := id
  specialUse := none

/-- An update of one of Tuta's mail entities, without an inlined payload. -/
def sampleEvent (typeId : Int) (listId elementId : String) (operation : Operation) : EntityUpdateEvent where
  application := tutanotaApp
  typeId := typeId
  instanceListId := listId
  instanceId := elementId
  operation := operation
  inlined := none
  blobInstance := none

/-- The mail a `MailSetEntry` event of the fixtures is about. -/
def entryMail : String := "-----------0"

/-- An event of that mail in a folder, with its entry inlined. -/
def entryEvent (entriesListId : String) (operation : Operation) : EntityUpdateEvent :=
  { sampleEvent mailSetEntryTypeId entriesListId "V7ifKQAAAAAAAAAAAQ" operation with
    inlined := some entryMail }

/-- A bridge whose disk agrees with its memory: a row for each mail, and for each
folder a counter above its UIDs. -/
def sampleWorld (folderList : List FolderInfo) (contents : List (String × List StoredMail)) : World where
  store :=
    { MailStore.new with
      folderList := folderList
      folders := contents.foldl (fun folders row => folders.set row.1 row.2) .empty }
  localStore :=
    { LocalStore.blank with
      mails := (contents.flatMap fun row =>
        row.2.map fun stored => mailToMetadata idCodec stored.mail row.1 stored.uid).foldl
          (fun mails metadata => mails.insert metadata) .empty
      syncState := contents.foldl (fun counters row => counters.insert
          ⟨row.1, 0, (row.2.map StoredMail.uid).foldl max 0 + 1⟩) .empty }
  lastBatchIds := .empty
  tick := 0

end TutaBridge.Events
