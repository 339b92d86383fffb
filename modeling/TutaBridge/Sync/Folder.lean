import TutaBridge.Bridge.World

/-!
# Loading and syncing a folder

`loadCachedFolder` fills a folder from the `mails` table at startup;
`syncFolder` replaces it by what the server lists. Both replace the whole folder
in memory, and `syncFolder` also prunes the table to the listed mails.
-/

namespace TutaBridge.Sync

open TutaBridge.Std Tuta Store Bridge

variable (env : Env)

def mailToMetadata (codec : MailCodec) (mail : Mail) (folderId : String) (uid : Nat) : MailMetadata where
  listId := (mail.id.map IdTuple.listId).getD ""
  elementId := mail.elementId.getD ""
  folderId := folderId
  subject := mail.subject
  senderName := mail.sender.name
  senderAddress := mail.sender.address
  receivedDateMs := mail.receivedDate
  unread := mail.unread
  hasDetails := false
  uid := uid
  mailJson := codec.toJson mail

/-- The mail a row is loaded as, `none` when its JSON does not parse. -/
def cachedMail (codec : MailCodec) (store : LocalStore) (row : MailMetadata) : Option StoredMail :=
  (codec.fromJson row.mailJson).map fun mail =>
    { mail := mail
      bodyLoaded := store.hasEml row.elementId
      uid := row.uid % 2 ^ 32
      attachmentsPending := false }

/-- The mails `load_cached_folder` would load; one bad row fails the folder. -/
def cachedFolder (codec : MailCodec) (store : LocalStore) (folderId : String) : Option (List StoredMail) :=
  (store.loadFolderMetadata folderId).mapM (cachedMail codec store)

/-- Set `has_details` on a row whose body file outlived a migration. -/
def healHasDetails (row : MailMetadata) (world : World) : World :=
  if world.localStore.hasEml row.elementId ∧ ¬ row.hasDetails then
    world.write env (·.markHasDetails row.elementId)
  else world

/-- Load the rows one by one, healing each, up to one that does not parse. -/
def readRows (env : Env) : List MailMetadata → World → Option (List StoredMail) × World
  | [], world => (some [], world)
  | row :: rest, world =>
    match cachedMail env.codec world.localStore row with
    | none => (none, world)
    | some stored =>
      let loaded := readRows env rest (healHasDetails env row world)
      (loaded.1.map (stored :: ·), loaded.2)

/-- The disk half of `load_cached_folder`. -/
def readCachedFolder (folder : FolderInfo) (world : World) :
    Except String (List StoredMail) × World :=
  let loaded := world.call env fun store => (store.loadFolderMetadata folder.id, store)
  match loaded.1 with
  | .error _ => (.error "Database error", loaded.2)
  | .ok rows =>
    let mails := readRows env rows loaded.2
    match mails.1 with
    | none => (.error "Bad cached mail", mails.2)
    | some stored => (.ok stored, mails.2)

def loadCachedFolder (folder : FolderInfo) (world : World) : Except String Nat × World :=
  let read := readCachedFolder env folder world
  match read.1 with
  | .error error => (.error error, read.2)
  | .ok mails => (.ok mails.length, read.2.mapStore (·.setFolder folder.id mails))

/-- `existing_map.get`: collecting into a hash map keeps the last mail of an id. -/
def existingMail (existing : List StoredMail) (elementId : String) : Option StoredMail :=
  (existing.filter fun stored => stored.elementId = some elementId).getLast?

/-- The ids the folder has not seen, oldest first. -/
def newElementIds (existing : List StoredMail) (newMails : List Mail) : List String :=
  (newMails.reverse.filterMap Mail.elementId).filter fun id => (existingMail existing id).isNone

/-- The UID a listed mail keeps or gets, 0 when it has none. -/
def syncedUid (existing : List StoredMail) (newUids : Dict String Nat) (mail : Mail) : Nat :=
  (mail.elementId.bind fun id =>
    ((existingMail existing id).map StoredMail.uid).or (newUids.get? id)).getD 0

/-- What the folder holds for a listed mail after the sync. -/
def syncedMail (existing : List StoredMail) (newUids : Dict String Nat) (mail : Mail) : StoredMail :=
  match mail.elementId.bind (existingMail existing) with
  | some stored =>
    { mail := mail
      bodyLoaded := stored.bodyLoaded
      uid := syncedUid existing newUids mail
      attachmentsPending := stored.attachmentsPending }
  | none =>
    { mail := mail
      bodyLoaded := false
      uid := syncedUid existing newUids mail
      attachmentsPending := false }

/-- Allocate UIDs for the unseen mails; a failed allocation gives none. -/
def allocateNew (folderId : String) (ids : List String) (world : World) :
    Dict String Nat × World :=
  if ids.isEmpty then (.empty, world)
  else
    let allocated := world.call env (LocalStore.allocateFolderUids folderId ids)
    match allocated.1 with
    | .ok uids => (uids, allocated.2)
    | .error _ => (.empty, allocated.2)

/-- Prune the table to the listed mails, with their body files and index rows. -/
def pruneDeleted (folderId : String) (currentIds : List String) (world : World) : World :=
  let pruned := world.call env (LocalStore.deleteMailsNotIn folderId currentIds)
  match pruned.1 with
  | .error _ => pruned.2
  | .ok deleted =>
    deleted.foldl (fun world id => (world.write env (·.deleteEml id)).write env (·.unindexBody id)) pruned.2

/-- The part of `sync_folder` before the folder is replaced: UIDs, rows, prune.
It returns the mails the folder is to hold. -/
def persistListing (folder : FolderInfo) (newMails : List Mail) (world : World) :
    List StoredMail × World :=
  let existing := world.store.getFolder folder.id
  let allocated := allocateNew env folder.id (newElementIds existing newMails) world
  let metas := newMails.map fun mail =>
    mailToMetadata env.codec mail folder.id (syncedUid existing allocated.1 mail)
  let persisted := allocated.2.write env (·.upsertMailMetadataBatch metas)
  (newMails.map (syncedMail existing allocated.1),
    pruneDeleted env folder.id (newMails.filterMap Mail.elementId) persisted)

/-- The listing `sync_folder` asks for. -/
def listFolder (folder : FolderInfo) (world : World) : Except String (List Mail) × World :=
  retry (fun tick => env.backend.loadMailIdsForFolder tick folder) maxRetries world

/-- Replace a folder by what the server lists. -/
def syncFolder (folder : FolderInfo) (world : World) : Except String Unit × World :=
  let listed := listFolder env folder world
  match listed.1 with
  | .error error => (.error error, listed.2)
  | .ok newMails =>
    let persisted := persistListing env folder newMails listed.2
    (.ok (), persisted.2.mapStore (·.setFolder folder.id persisted.1))

end TutaBridge.Sync
