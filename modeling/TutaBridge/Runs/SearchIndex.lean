import TutaBridge.Events.HandlerFacts
import TutaBridge.Imap.Fetch
import TutaBridge.Std.Catalog
import TutaBridge.Sync.Backfill

/-!
# The search index over whole runs

Four paths write bodies and four remove mails, each with its own part of row, file
and index row. Every operation is one or two changes of a `Catalog`, so the
condition under which it keeps the index complete is the catalogue's.
-/

namespace TutaBridge.Runs

open TutaBridge.Std Tuta Store Bridge Sync
open Events Imap

/-! ## The bodies that are downloaded -/

/-- The body both requests of the prefetch answer with. -/
def loadedBody (env : Env) (folder : FolderInfo) (elementId : String) (world : World) : Option BodyEntry :=
  let loaded := loadCurrentDetails env folder.id elementId maxRetries world
  match loaded.1 with
  | .ok none | .error _ => none
  | .ok (some (mail, details)) =>
    match env.backend.loadAttachments loaded.2.tick mail with
    | .error _ => none
    | .ok files => some ⟨details, env.rendering.mailToRfc2822 mail details files⟩

/-- The body a round of the prefetch downloads, with its mail. -/
def prefetchedBody (env : Env) (folder : FolderInfo) (state : Prefetcher) (stored : StoredMail) :
    Option (String × BodyEntry) :=
  stored.elementId.bind fun elementId =>
    if stored.bodyLoaded || state.world.localStore.hasEml elementId then none
    else if state.throttled env elementId then none
    else (loadedBody env folder elementId state.world).map fun body => (elementId, body)

/-- The body a FETCH downloads. -/
def fetchedBody (env : Env) (target : FetchTarget) (world : World) : Option BodyEntry :=
  if target.bodyLoaded then none
  else
    let available := getBody env target.elementId world
    let cooldown := available.2.store.bodyFetchOnCooldown target.elementId (env.now available.2.tick)
    if available.1.isSome || cooldown.1 then none
    else (downloadBody env target { available.2 with store := cooldown.2 }).1

section Downloads

variable {env : Env}

theorem loadCurrentDetails_localStore (folderId elementId : String) (retries : Nat) (world : World) :
    (loadCurrentDetails env folderId elementId retries world).2.localStore = world.localStore := by
  induction retries generalizing world with
  | zero =>
    unfold loadCurrentDetails
    split
    · rfl
    · dsimp only
      split <;> first | rfl | contradiction
  | succ retries ih =>
    unfold loadCurrentDetails
    split
    · rfl
    · dsimp only
      split
      · rfl
      · contradiction
      next later _ count =>
        cases count
        exact ih _

/-- What a complete message does to the disk. -/
def keptStore (env : Env) (elementId : String) (body : BodyEntry) (store : LocalStore) : LocalStore :=
  let written := (store.writeEml elementId body.rfc2822).markHasDetails elementId
  match body.details with
  | none => written
  | some details => written.indexBody elementId (env.rendering.stripHtml details.bodyHtml)

theorem keepComplete_localStore (diskOk : env.DiskOk) (folderId elementId : String) (body : BodyEntry)
    (world : World) :
    (keepComplete env folderId elementId body world).localStore = keptStore env elementId body world.localStore := by
  unfold keepComplete keptStore indexDetails
  simp only [World.mapStore_localStore]
  split <;> simp [writeBody, World.writeAll_localStore diskOk, World.write_localStore diskOk, *]

theorem prefetchBody_localStore (diskOk : env.DiskOk) (folder : FolderInfo) (elementId : String)
    (state : Prefetcher) :
    (prefetchBody env folder elementId state).world.localStore =
      (loadedBody env folder elementId state.world).elim state.world.localStore
        fun body => keptStore env elementId body state.world.localStore := by
  have same := @loadCurrentDetails_localStore env folder.id elementId maxRetries state.world
  unfold prefetchBody loadedBody
  dsimp only
  generalize loadCurrentDetails env folder.id elementId maxRetries state.world = loaded at same ⊢
  obtain ⟨answer, after⟩ := loaded
  rcases answer with message | _ | ⟨mail, details⟩
  · exact same
  · exact same
  · dsimp only [World.ask_fst]
    cases env.backend.loadAttachments after.tick mail with
    | error error => exact same
    | ok files =>
      have kept := keepComplete_localStore diskOk folder.id elementId
        ⟨details, env.rendering.mailToRfc2822 mail details files⟩
        (after.ask fun tick => env.backend.loadAttachments tick mail).2
      rw [World.ask_localStore, same] at kept
      exact kept

/-- A round writes and indexes the body it downloads, and nothing else. -/
theorem prefetchMail_localStore (diskOk : env.DiskOk) (folder : FolderInfo) (state : Prefetcher)
    (stored : StoredMail) :
    (prefetchMail env folder state stored).world.localStore =
      (prefetchedBody env folder state stored).elim state.world.localStore
        fun body => keptStore env body.1 body.2 state.world.localStore := by
  unfold prefetchMail prefetchedBody
  cases stored.elementId with
  | none => rfl
  | some elementId =>
    dsimp only [Option.bind_some]
    split
    · rfl
    · split
      · rfl
      · rw [prefetchBody_localStore diskOk]
        cases loadedBody env folder elementId state.world <;> rfl

theorem getBody_localStore (elementId : String) (world : World) :
    (getBody env elementId world).2.localStore = world.localStore := by
  have read : ∀ world : World, (readBody env elementId world).2.localStore = world.localStore := by
    intro world
    unfold readBody World.call
    split
    · dsimp only
      cases env.diskFault world.tick with
      | some fault => rfl
      | none => rfl
    · rfl
  have looked : ∀ world : World, (lookUp elementId world).2.localStore = world.localStore :=
    fun _ => rfl
  have cached : ∀ (rfc2822 : String) (world : World),
      (cacheRead elementId rfc2822 world).localStore = world.localStore := fun _ _ => rfl
  cases hit : (lookUp elementId world).1 with
  | some body => rw [getBody_hit hit, looked]
  | none =>
    cases found : (readBody env elementId (lookUp elementId world).2).1 with
    | none => rw [getBody_missing hit found, read, looked]
    | some rfc2822 => rw [getBody_read hit found, looked, cached, read, looked]

theorem downloadBody_localStore (target : FetchTarget) (world : World) :
    (downloadBody env target world).2.localStore = world.localStore := by
  unfold downloadBody
  dsimp only
  split
  · rfl
  · split <;> rfl

/-- A FETCH writes the body it downloads, and does not index it. -/
theorem fetchBody_localStore (diskOk : env.DiskOk) (target : FetchTarget) (world : World) :
    (fetchBody env target world).2.localStore = (fetchedBody env target world).elim world.localStore fun body =>
        (world.localStore.writeEml target.elementId body.rfc2822).markHasDetails target.elementId := by
  have available := @getBody_localStore env target.elementId world
  unfold fetchBody fetchedBody
  dsimp only
  split
  · exact available
  · cases (getBody env target.elementId world).1 with
    | some body =>
      simp only [Option.isSome_some, Bool.true_or, if_true, Option.elim_none]
      rw [getBody_localStore, available]
    | none =>
      simp only [Option.isSome_none, Bool.false_or]
      split
      · exact available
      · split
        next failed =>
          rw [failed, downloadBody_localStore]
          exact available
        next body succeeded =>
          rw [succeeded, getBody_localStore]
          simp [keepFetched, writeBody, World.writeAll_localStore diskOk, downloadBody_localStore, available]

end Downloads

/-! ## The operations -/

/-- The bridge, and which mails' last body file was rendered from details. The
program does not record the latter. -/
structure Archive where
  prefetcher : Prefetcher
  detailed : String → Bool

namespace Archive

def world (archive : Archive) : World := archive.prefetcher.world

def disk (archive : Archive) : LocalStore := archive.world.localStore

def setWorld (archive : Archive) (world : World) : Archive :=
  { archive with prefetcher := { archive.prefetcher with world := world } }

/-- Note a body that is written. -/
def note (body : Option (String × BodyEntry)) (archive : Archive) : Archive :=
  match body with
  | none => archive
  | some (elementId, entry) =>
    { archive with detailed := Function.update archive.detailed elementId entry.details.isSome }

end Archive

/-- What happens to rows, files and index between two passes of the prefetch. -/
inductive ArchiveOp where
  /-- An inlined Mail CREATE, placed in a folder. -/
  | create (target : FolderInfo) (mailEid : String) (pending : PendingMail)
  | prefetch (folder : FolderInfo) (bodyPrefetchLimit : Nat)
  | fetch (target : FetchTarget)
  | sync (folder : FolderInfo)
  | entryDelete (folders : List FolderInfo) (ev : EntityUpdateEvent)
  | mailDelete (elementId : String)
  | refreshFolders
  | backfill (folders : List FolderInfo)
  /-- A restart with a build of the schema version. -/
  | reopen (version : String)
  | load (folder : FolderInfo)

/-- The body an inlined CREATE writes. -/
def inlinedBody (env : Env) (mailEid : String) (pending : PendingMail) : Option (String × BodyEntry) :=
  (inlineRfc2822 env.rendering pending).map fun eml => (mailEid, ⟨pending.details, eml⟩)

/-- The bridge after a restart: the disk as the build opens it, and nothing in
memory. -/
def reopened (version : String) (world : World) : World :=
  let disk := world.localStore.open version
  { store := { MailStore.new with bodies := { MailStore.new.bodies with diskFallback := true } }
    localStore := disk
    lastBatchIds := disk.loadEventBusState
    tick := world.tick }

/-- One round of the prefetch, with its body noted. -/
def prefetchRound (env : Env) (folder : FolderInfo) (archive : Archive) (stored : StoredMail) :
    Archive :=
  { archive with prefetcher := prefetchMail env folder archive.prefetcher stored }.note
    (prefetchedBody env folder archive.prefetcher stored)

def archiveStep (env : Env) (archive : Archive) : ArchiveOp → Archive
  | .create target mailEid pending =>
    (archive.setWorld (applyInlineCreate env target mailEid pending archive.world)).note
      (inlinedBody env mailEid pending)
  | .prefetch folder bodyPrefetchLimit =>
    (prefetchWindow (archive.world.store.getFolder folder.id) bodyPrefetchLimit).foldl
      (prefetchRound env folder) archive
  | .fetch target =>
    (archive.setWorld (fetchBody env target archive.world).2).note
      ((fetchedBody env target archive.world).map fun body => (target.elementId, body))
  | .sync folder => archive.setWorld (syncFolder env folder archive.world).2
  | .entryDelete folders ev =>
    archive.setWorld (applyMailSetEntryDelete env folders archive.world ev)
  | .mailDelete elementId => archive.setWorld (forgetMail env elementId archive.world)
  | .refreshFolders => archive.setWorld (refreshFolderList env archive.world)
  | .backfill folders => archive.setWorld (backfill env folders archive.world)
  | .reopen version =>
    { archive with prefetcher := ⟨reopened version archive.world, .empty⟩ }
  | .load folder => archive.setWorld (loadCachedFolder env folder archive.world).2

/-! ## A complete index -/

/-- Every mail with a row, a body file and a details body is indexed, and every
index row belongs to a mail with a row. -/
structure FullyIndexed (archive : Archive) : Prop where
  covers : ∀ id, archive.disk.hasRow id → archive.disk.hasEml id → archive.detailed id →
    archive.disk.indexed id
  belongs : ∀ id, archive.disk.indexed id → archive.disk.hasRow id

/-- The folders a refresh of the folder list drops. -/
def droppedFolders (env : Env) (world : World) : List String :=
  match env.backend.listFolders world.tick with
  | .error _ => []
  | .ok folders => (world.store.pruneUnknownFolders (folders.map FolderInfo.id)).1

/-- When an operation keeps a complete index complete, in the state it starts
from. -/
def KeepsIndex (env : Env) (archive : Archive) : ArchiveOp → Prop
  | .create _ mailEid pending =>
    let placed := pending.mail.elementId.getD ""
    ((inlineRfc2822 env.rendering pending).isSome → mailEid = placed ∨ archive.disk.hasRow mailEid →
      archive.disk.indexed mailEid) ∧
    (archive.disk.hasEml placed → archive.detailed placed → archive.disk.indexed placed)
  | .prefetch folder bodyPrefetchLimit =>
    Guarded (prefetchRound env folder)
      (fun archive stored => ∀ body ∈ prefetchedBody env folder archive.prefetcher stored,
        body.2.details.isSome → archive.disk.hasRow body.1)
      archive (prefetchWindow (archive.world.store.getFolder folder.id) bodyPrefetchLimit)
  | .fetch target =>
    ∀ body ∈ fetchedBody env target archive.world, body.details.isSome →
      archive.disk.hasRow target.elementId → archive.disk.indexed target.elementId
  | .sync folder =>
    match (listFolder env folder archive.world).1 with
    | .error _ => True
    | .ok mails => ∀ mail ∈ mails, ∀ id ∈ mail.elementId,
        archive.disk.hasEml id → archive.detailed id → archive.disk.indexed id
  | .refreshFolders =>
    ∀ row ∈ archive.disk.mails.rows, row.folderId ∈ droppedFolders env archive.world →
      ¬ archive.disk.indexed row.elementId
  | .entryDelete _ _ | .mailDelete _ | .backfill _ | .reopen _ | .load _ => True

/-! ## The disk as a catalogue -/

/-- The rows, files and index rows of the disk, with the details bodies. -/
def catalogOf (disk : LocalStore) (detailed : String → Bool) : Catalog String where
  records := { id | disk.hasRow id }
  files := { id | disk.hasEml id }
  texts := { id | detailed id }
  index := { id | disk.indexed id }

def Archive.catalog (archive : Archive) : Catalog String := catalogOf archive.disk archive.detailed

theorem fullyIndexed_iff_covered {archive : Archive} : FullyIndexed archive ↔ archive.catalog.Covered :=
  ⟨fun full => ⟨full.covers, full.belongs⟩, fun covered => ⟨covered.covers, covered.belongs⟩⟩

section Disk

variable {disk after : LocalStore} {detailed : String → Bool}

/-- A catalogue is known by what is in it. -/
theorem catalogOf_eq {target : Catalog String} (records : ∀ id, disk.hasRow id ↔ id ∈ target.records)
    (files : ∀ id, disk.hasEml id ↔ id ∈ target.files) (texts : ∀ id, detailed id ↔ id ∈ target.texts)
    (index : ∀ id, disk.indexed id ↔ id ∈ target.index) : catalogOf disk detailed = target :=
  Catalog.ext (Set.ext records) (Set.ext files) (Set.ext texts) (Set.ext index)

theorem catalogOf_upsertMailMetadata (metadata : MailMetadata) :
    catalogOf (disk.upsertMailMetadata metadata) detailed =
      (catalogOf disk detailed).place {metadata.elementId} := by
  refine catalogOf_eq (fun id => ?_) (fun _ => Iff.rfl) (fun _ => Iff.rfl) fun _ => Iff.rfl
  simp [Catalog.place, catalogOf]

@[simp] theorem catalogOf_markHasDetails (elementId : String) :
    catalogOf (disk.markHasDetails elementId) detailed = catalogOf disk detailed := by
  refine catalogOf_eq (fun id => ?_) (fun _ => Iff.rfl) (fun _ => Iff.rfl) fun _ => Iff.rfl
  simp [catalogOf]

theorem catalogOf_writeEml (elementId text : String) (hasText : Bool) :
    catalogOf (disk.writeEml elementId text) (Function.update detailed elementId hasText) =
      (catalogOf disk detailed).file elementId hasText := by
  refine catalogOf_eq (fun _ => Iff.rfl) (fun id => ?_) (fun id => ?_) fun _ => Iff.rfl
  · simp [catalogOf, Catalog.file]
  · by_cases same : id = elementId <;> simp [catalogOf, Catalog.file, same]

theorem catalogOf_indexBody (elementId text : String) : catalogOf (disk.indexBody elementId text) detailed =
      (catalogOf disk detailed).enter {elementId} := by
  refine catalogOf_eq (fun _ => Iff.rfl) (fun _ => Iff.rfl) (fun _ => Iff.rfl) fun id => ?_
  simp [catalogOf, Catalog.enter]

theorem catalogOf_deleteMail (elementId : String) :
    catalogOf (((disk.deleteMailRow elementId).deleteEml elementId).unindexBody elementId) detailed =
      (catalogOf disk detailed).remove {elementId} := by
  refine catalogOf_eq (fun id => ?_) (fun id => ?_) (fun _ => Iff.rfl) fun id => ?_
  · simp [catalogOf, Catalog.remove, and_comm]
  · simp [catalogOf, Catalog.remove, and_comm]
  · simp [catalogOf, Catalog.remove, and_comm]

/-- A complete message is written and indexed. -/
theorem catalogOf_keptStore (env : Env) (elementId : String) (body : BodyEntry) :
    catalogOf (keptStore env elementId body disk) (Function.update detailed elementId body.details.isSome) =
      (catalogOf disk detailed).fileIndexed elementId body.details.isSome := by
  unfold keptStore Catalog.fileIndexed
  cases found : body.details with
  | none =>
    simp only [catalogOf_markHasDetails, catalogOf_writeEml]
    ext <;> simp [Catalog.enter]
  | some details =>
    simp only [catalogOf_indexBody, catalogOf_markHasDetails, catalogOf_writeEml]
    ext <;> simp [Catalog.enter]

theorem catalogOf_upsertMailMetadataBatch (metas : List MailMetadata) :
    catalogOf (disk.upsertMailMetadataBatch metas) detailed =
      (catalogOf disk detailed).place { id | id ∈ metas.map MailMetadata.elementId } := by
  refine catalogOf_eq (fun id => ?_) (fun _ => Iff.rfl) (fun _ => Iff.rfl) fun _ => Iff.rfl
  change ((metas.foldl (fun mails metadata => LocalStore.upsertBatchRow metadata mails)
    disk.mails).find? id).isSome ↔ (disk.mails.find? id).isSome ∨ id ∈ metas.map _
  by_cases listed : id ∈ metas.map MailMetadata.elementId
  · obtain ⟨row, found, _⟩ := find?_upsertBatch_of_mem disk.mails listed
    simp [found, listed]
  · rw [find?_upsertBatch_of_not_mem listed]
    simp [listed]

/-- A prune takes the row, the file and the index row of each mail it deletes. -/
theorem catalogOf_prunedStore (folderId : String) (currentIds : List String) :
    catalogOf (prunedStore folderId currentIds disk) detailed =
      (catalogOf disk detailed).remove { id | id ∈ (disk.deleteMailsNotIn folderId currentIds).1 } := by
  refine catalogOf_eq (fun id => ?_) (fun id => ?_) (fun _ => Iff.rfl) fun id => ?_
  · change ((prunedStore folderId currentIds disk).mails.find? id).isSome ↔
      (disk.mails.find? id).isSome ∧ id ∉ (disk.deleteMailsNotIn folderId currentIds).1
    rw [prunedStore_mails, LocalStore.find?_deleteMailsNotIn, LocalStore.mem_deleteMailsNotIn_iff]
    cases disk.mails.find? id with
    | none => simp
    | some row =>
      by_cases listed : id ∈ currentIds <;> by_cases inFolder : row.folderId = folderId <;>
        simp [Option.filter_some, listed, inFolder]
  · change ((prunedStore folderId currentIds disk).emls.get? id).isSome ↔
      (disk.emls.get? id).isSome ∧ id ∉ (disk.deleteMailsNotIn folderId currentIds).1
    rw [prunedStore_emls]
    split <;> simp [*]
  · change (∃ row ∈ (prunedStore folderId currentIds disk).mailFts, row.1 = id) ↔
      (∃ row ∈ disk.mailFts, row.1 = id) ∧ id ∉ (disk.deleteMailsNotIn folderId currentIds).1
    rw [prunedStore_mailFts]
    constructor
    · rintro ⟨row, mem, rfl⟩
      obtain ⟨inIndex, kept⟩ := List.mem_filter.mp mem
      exact ⟨⟨row, inIndex, rfl⟩, by simpa using kept⟩
    · rintro ⟨⟨row, inIndex, rfl⟩, kept⟩
      exact ⟨row, List.mem_filter.mpr ⟨inIndex, by simpa using kept⟩, rfl⟩

/-- The mails of some folders, by their rows. -/
def mailsOf (disk : LocalStore) (folderIds : List String) : Set String :=
  { id | ∃ row, disk.mails.find? id = some row ∧ row.folderId ∈ folderIds }

/-- A folder that is dropped takes rows and files with it, but not the index. -/
theorem catalogOf_dropFolders {env : Env} (diskOk : env.DiskOk) (folderIds : List String) (world : World) :
    catalogOf (folderIds.foldl (dropFolder env) world).localStore detailed =
      (catalogOf world.localStore detailed).drop (mailsOf world.localStore folderIds) := by
  induction folderIds generalizing world with
  | nil =>
    refine catalogOf_eq (fun id => ?_) (fun id => ?_) (fun _ => Iff.rfl) fun _ => Iff.rfl
    · simp [Catalog.drop, catalogOf, mailsOf]
    · simp [Catalog.drop, catalogOf, mailsOf]
  | cons folderId rest ih =>
    obtain ⟨_, rows, _, index, files⟩ := dropFolder_facts diskOk folderId world
    rw [List.foldl_cons, ih]
    ext id
    · simp only [Catalog.drop, catalogOf, mailsOf, LocalStore.hasRow, rows, Set.mem_sdiff,
        Set.mem_ofPred_eq]
      cases world.localStore.mails.find? id with
      | none => simp
      | some row =>
        by_cases inFolder : row.folderId = folderId <;> simp [Option.filter_some, inFolder]
    · simp only [Catalog.drop, catalogOf, mailsOf, LocalStore.hasEml, rows, files, Set.mem_sdiff,
        Set.mem_ofPred_eq]
      cases world.localStore.mails.find? id with
      | none => simp
      | some row =>
        by_cases inFolder : row.folderId = folderId <;> simp [Option.filter_some, inFolder]
    · exact Iff.rfl
    · simp [Catalog.drop, catalogOf, LocalStore.indexed, index]

/-- Opening keeps the tables of its own version, and else drops rows and index. -/
theorem catalogOf_open (version : String) : catalogOf (disk.open version) detailed = catalogOf disk detailed ∨
      catalogOf (disk.open version) detailed = (catalogOf disk detailed).clear := by
  unfold LocalStore.open
  dsimp only
  split
  · refine .inr (catalogOf_eq (fun _ => ?_) (fun _ => Iff.rfl) (fun _ => Iff.rfl) fun _ => ?_)
    · simp [LocalStore.hasRow, Catalog.clear]
    · simp [LocalStore.indexed, Catalog.clear]
  · exact .inl rfl

end Disk

/-! ## What each operation needs -/

section Operations

variable {env : Env} {archive : Archive}

theorem details_of_inlineRfc2822 {pending : PendingMail} {eml : String}
    (rendered : inlineRfc2822 env.rendering pending = some eml) : pending.details.isSome := by
  unfold inlineRfc2822 at rendered
  cases details : pending.details with
  | none => simp [details] at rendered
  | some found => rfl

theorem catalog_create (diskOk : env.DiskOk) (target : FolderInfo) (mailEid : String)
    (pending : PendingMail) :
    (archiveStep env archive (.create target mailEid pending)).catalog =
      ((inlineRfc2822 env.rendering pending).elim archive.catalog fun _ =>
        archive.catalog.file mailEid true).place {pending.mail.elementId.getD ""} := by
  simp only [archiveStep, inlinedBody, applyInlineCreate]
  cases rendered : inlineRfc2822 env.rendering pending with
  | none =>
    change catalogOf (assignUidAndUpsert env target mailEid _ archive.world).localStore archive.detailed = _
    rw [assignUidAndUpsert_localStore diskOk, catalogOf_upsertMailMetadata]
    rfl
  | some eml =>
    change catalogOf (assignUidAndUpsert env target mailEid _ (persistInlineBody env mailEid
      pending.details eml archive.world)).localStore
      (Function.update archive.detailed mailEid pending.details.isSome) = _
    rw [assignUidAndUpsert_localStore diskOk, catalogOf_upsertMailMetadata, details_of_inlineRfc2822 rendered]
    change (catalogOf (persistInlineBody env mailEid pending.details eml archive.world).localStore
      _).place _ = _
    rw [(persistInlineBody_facts diskOk mailEid pending.details eml archive.world).2,
      catalogOf_markHasDetails, catalogOf_writeEml]
    rfl

theorem covered_create_iff (diskOk : env.DiskOk) (covered : archive.catalog.Covered)
    (target : FolderInfo) (mailEid : String) (pending : PendingMail) :
    (archiveStep env archive (.create target mailEid pending)).catalog.Covered ↔
      KeepsIndex env archive (.create target mailEid pending) := by
  rw [catalog_create diskOk]
  cases rendered : inlineRfc2822 env.rendering pending with
  | none =>
    refine (Catalog.covered_place_iff covered _).trans ?_
    simp only [Set.mem_singleton_iff, forall_eq, KeepsIndex, rendered, Option.isSome_none,
      Bool.false_eq_true, false_imp_iff, true_and]
    exact Iff.rfl
  | some eml =>
    refine (Catalog.covered_file_place_iff covered _ _).trans ?_
    simp only [KeepsIndex, rendered, Option.isSome_some, true_imp_iff]
    exact Iff.rfl

/-- The prefetch downloads only what has no file yet. -/
theorem prefetchedBody_isNew {folder : FolderInfo} {state : Prefetcher} {stored : StoredMail}
    {body : String × BodyEntry} (downloads : prefetchedBody env folder state stored = some body) :
    ¬ state.world.localStore.hasEml body.1 := by
  unfold prefetchedBody at downloads
  obtain ⟨elementId, _, downloads⟩ := Option.bind_eq_some_iff.mp downloads
  split at downloads
  · cases downloads
  next missing =>
    split at downloads
    · cases downloads
    · obtain ⟨entry, _, rfl⟩ := Option.map_eq_some_iff.mp downloads
      simp only [Bool.or_eq_true, not_or] at missing
      exact missing.2

theorem covered_prefetchRound_iff (diskOk : env.DiskOk) (folder : FolderInfo) (archive : Archive)
    (stored : StoredMail) : (prefetchRound env folder archive stored).catalog.Covered ↔
      archive.catalog.Covered ∧ ∀ body ∈ prefetchedBody env folder archive.prefetcher stored,
        body.2.details.isSome → archive.disk.hasRow body.1 := by
  have disk := prefetchMail_localStore diskOk folder archive.prefetcher stored
  cases downloads : prefetchedBody env folder archive.prefetcher stored with
  | none =>
    rw [downloads] at disk
    have same : (prefetchRound env folder archive stored).catalog = archive.catalog := by
      unfold prefetchRound
      rw [downloads]
      exact congrArg (catalogOf · archive.detailed) disk
    simp [same]
  | some body =>
    rw [downloads] at disk
    have filed : (prefetchRound env folder archive stored).catalog =
        archive.catalog.fileIndexed body.1 body.2.details.isSome := by
      unfold prefetchRound
      rw [downloads]
      change catalogOf (prefetchMail env folder archive.prefetcher stored).world.localStore
        (Function.update archive.detailed body.1 body.2.details.isSome) = _
      rw [disk]
      exact catalogOf_keptStore env body.1 body.2
    rw [filed, Catalog.covered_fileIndexed_iff (prefetchedBody_isNew downloads)]
    simp only [Option.mem_some_iff, forall_eq']
    exact Iff.rfl

/-- No round of a pass makes good what an earlier one missed. -/
theorem covered_prefetch_iff (diskOk : env.DiskOk) (covered : archive.catalog.Covered)
    (folder : FolderInfo) (bodyPrefetchLimit : Nat) :
    (archiveStep env archive (.prefetch folder bodyPrefetchLimit)).catalog.Covered ↔
      KeepsIndex env archive (.prefetch folder bodyPrefetchLimit) := by
  have pass := Guarded.foldl_iff (fun archive : Archive => archive.catalog.Covered)
    (covered_prefetchRound_iff diskOk folder) archive
    (prefetchWindow (archive.world.store.getFolder folder.id) bodyPrefetchLimit)
  exact pass.trans (and_iff_right covered)

theorem covered_fetch_iff (diskOk : env.DiskOk) (covered : archive.catalog.Covered) (target : FetchTarget) :
    (archiveStep env archive (.fetch target)).catalog.Covered ↔ KeepsIndex env archive (.fetch target) := by
  have disk := fetchBody_localStore diskOk target archive.world
  simp only [archiveStep, KeepsIndex]
  cases downloads : fetchedBody env target archive.world with
  | none =>
    rw [downloads] at disk
    have same : (archive.setWorld (fetchBody env target archive.world).2).catalog =
        archive.catalog := congrArg (catalogOf · archive.detailed) disk
    simp [Archive.note, same, covered]
  | some body =>
    rw [downloads] at disk
    have filed : ((archive.setWorld (fetchBody env target archive.world).2).note
        (some (target.elementId, body))).catalog =
        archive.catalog.file target.elementId body.details.isSome := by
      change catalogOf (fetchBody env target archive.world).2.localStore
        (Function.update archive.detailed target.elementId body.details.isSome) = _
      rw [disk]
      exact (catalogOf_markHasDetails _).trans (catalogOf_writeEml _ _ _)
    rw [Option.map_some, filed, Catalog.covered_file_iff covered]
    simp only [Option.mem_some_iff, forall_eq']
    exact Iff.rfl

/-- The metadata of a listing that survives its own prune is that of the listed
mails with an id. -/
theorem mem_listed_iff {folder : FolderInfo} {world : World} {mails : List Mail} (id : String) :
    (id ∈ (listedMetas env world folder.id mails).map MailMetadata.elementId ∧
      id ∉ (((allocatedStore world folder.id mails).upsertMailMetadataBatch
        (listedMetas env world folder.id mails)).deleteMailsNotIn folder.id (mails.filterMap Mail.elementId)).1) ↔
      ∃ mail ∈ mails, mail.elementId = some id := by
  rw [LocalStore.mem_deleteMailsNotIn_iff, List.mem_filterMap]
  constructor
  · rintro ⟨listed, kept⟩
    obtain ⟨row, found, ⟨metadata, mem, _, folderId, _⟩, _⟩ :=
      find?_upsertBatch_of_mem (allocatedStore world folder.id mails).mails listed
    obtain ⟨mail, _, rfl⟩ := List.mem_map.mp mem
    by_contra unlisted
    exact kept ⟨unlisted, row, found, folderId⟩
  · rintro ⟨mail, mem, identified⟩
    refine ⟨List.mem_map.mpr ⟨_, List.mem_map.mpr ⟨mail, mem, rfl⟩, ?_⟩,
      fun pruned => pruned.1 ⟨mail, mem, identified⟩⟩
    simp [mailToMetadata, identified]

section

variable (diskOk : env.DiskOk) (covered : archive.catalog.Covered)

include diskOk covered

theorem covered_sync_iff (folder : FolderInfo) :
    (archiveStep env archive (.sync folder)).catalog.Covered ↔ KeepsIndex env archive (.sync folder) := by
  simp only [archiveStep, KeepsIndex]
  cases listed : (listFolder env folder archive.world).1 with
  | error message =>
    have same : (archive.setWorld (syncFolder env folder archive.world).2).catalog = archive.catalog :=
      congrArg (catalogOf · archive.detailed) (syncFolder_of_error listed).2
    simpa [same] using covered
  | ok mails =>
    have synced : (archive.setWorld (syncFolder env folder archive.world).2).catalog =
        (archive.catalog.place { id | id ∈ (listedMetas env archive.world folder.id mails).map
          MailMetadata.elementId }).remove
        { id | id ∈ (((allocatedStore archive.world folder.id mails).upsertMailMetadataBatch
          (listedMetas env archive.world folder.id mails)).deleteMailsNotIn folder.id
            (mails.filterMap Mail.elementId)).1 } := by
      obtain ⟨rows, files, index, _⟩ := allocatedStore_facts archive.world folder.id mails
      have allocated : catalogOf (allocatedStore archive.world folder.id mails) archive.detailed =
          archive.catalog := by
        simp only [Archive.catalog, catalogOf, LocalStore.hasRow, LocalStore.hasEml,
          LocalStore.indexed, rows, files, index]
        rfl
      change catalogOf (syncFolder env folder archive.world).2.localStore archive.detailed = _
      rw [(syncFolder_of_ok diskOk listed).2, catalogOf_prunedStore,
        catalogOf_upsertMailMetadataBatch, allocated]
    rw [synced, Catalog.covered_place_remove_iff covered]
    constructor
    · intro indexed mail mem id identified
      obtain ⟨placed, kept⟩ := (mem_listed_iff id).mpr ⟨mail, mem, identified⟩
      exact indexed id placed kept
    · intro indexed id placed kept
      obtain ⟨mail, mem, identified⟩ := (mem_listed_iff id).mp ⟨placed, kept⟩
      exact indexed mail mem id identified

theorem covered_refreshFolders_iff :
    (archiveStep env archive .refreshFolders).catalog.Covered ↔ KeepsIndex env archive .refreshFolders := by
  have dropped : (archiveStep env archive .refreshFolders).catalog =
      archive.catalog.drop (mailsOf archive.disk (droppedFolders env archive.world)) := by
    change catalogOf (refreshFolderList env archive.world).localStore archive.detailed = _
    unfold refreshFolderList droppedFolders
    dsimp only [World.ask_fst]
    cases env.backend.listFolders archive.world.tick with
    | error message => exact catalogOf_dropFolders diskOk [] archive.world
    | ok folders => exact catalogOf_dropFolders diskOk _ _
  rw [dropped, Catalog.covered_drop_iff covered]
  constructor
  · intro unindexed row mem inFolder
    exact unindexed row.elementId ⟨row, Table.find?_of_mem mem, inFolder⟩
  · rintro unindexed id ⟨row, found, inFolder⟩
    obtain ⟨mem, rfl⟩ := Table.find?_eq_some_iff.mp found
    exact unindexed row mem inFolder

theorem covered_entryDelete (folders : List FolderInfo) (ev : EntityUpdateEvent) :
    (archiveStep env archive (.entryDelete folders ev)).catalog.Covered := by
  obtain same | ⟨_, mailEid, _, _, _, ⟨_, removed⟩ | ⟨_, deleted⟩⟩ :=
    deleteOutcome env folders archive.world ev
  · simp only [archiveStep, same]
    exact covered
  · simp only [archiveStep, removed]
    exact covered
  · have disk : (archiveStep env archive (.entryDelete folders ev)).catalog =
        archive.catalog.remove {mailEid} := by
      simp only [archiveStep, deleted]
      change catalogOf (World.deleteMail env mailEid _).localStore _ = _
      rw [World.deleteMail_localStore diskOk]
      exact catalogOf_deleteMail mailEid
    rw [disk]
    exact Catalog.covered_remove covered _

theorem covered_mailDelete
    (elementId : String) : (archiveStep env archive (.mailDelete elementId)).catalog.Covered := by
  have disk : (archiveStep env archive (.mailDelete elementId)).catalog =
      archive.catalog.remove {elementId} := by
    change catalogOf (forgetMail env elementId archive.world).localStore _ = _
    rw [forgetMail_localStore diskOk]
    exact catalogOf_deleteMail elementId
  rw [disk]
  exact Catalog.covered_remove covered _

end

theorem covered_backfill (covered : archive.catalog.Covered) (folders : List FolderInfo) :
    (archiveStep env archive (.backfill folders)).catalog.Covered := by
  have only := @backfill_onlyIndexes env folders archive.world
  have entered : (archiveStep env archive (.backfill folders)).catalog = archive.catalog.enter
        { id | (backfill env folders archive.world).localStore.indexed id ∧ archive.disk.hasRow id } := by
    change catalogOf (backfill env folders archive.world).localStore _ = _
    refine catalogOf_eq (fun id => ?_) (fun id => ?_) (fun _ => Iff.rfl) fun id => ?_
    · rw [LocalStore.hasRow, only.rows]
      rfl
    · rw [LocalStore.hasEml, only.files]
      rfl
    · exact ⟨fun entry => (only.added id entry).imp_right fun hasRow => ⟨entry, hasRow⟩,
        fun entry => entry.elim (only.kept id) And.left⟩
  rw [entered]
  exact Catalog.covered_enter covered fun _ entry => entry.2

theorem covered_reopen (covered : archive.catalog.Covered) (version : String) :
    (archiveStep env archive (.reopen version)).catalog.Covered := by
  change (catalogOf (archive.disk.open version) archive.detailed).Covered
  rcases @catalogOf_open archive.disk archive.detailed version with same | cleared
  · rw [same]
    exact covered
  · rw [cleared]
    exact Catalog.covered_clear _

theorem catalogOf_readRows (rows : List MailMetadata) (world : World) (detailed : String → Bool) :
    catalogOf (readRows env rows world).2.localStore detailed = catalogOf world.localStore detailed := by
  have healed : ∀ row world, catalogOf (healHasDetails env row world).localStore detailed =
      catalogOf world.localStore detailed := by
    intro row world
    unfold healHasDetails World.write World.call
    split
    · split
      · rfl
      · exact catalogOf_markHasDetails row.elementId
    · rfl
  induction rows generalizing world with
  | nil => rfl
  | cons row rest ih =>
    unfold readRows
    split
    · rfl
    · exact (ih _).trans (healed row world)

/-- Loading a folder only sets flags of rows. -/
theorem catalogOf_loadCachedFolder (folder : FolderInfo) (world : World) (detailed : String → Bool) :
    catalogOf (loadCachedFolder env folder world).2.localStore detailed = catalogOf world.localStore detailed := by
  have loaded : (world.call env fun store =>
      (store.loadFolderMetadata folder.id, store)).2.localStore = world.localStore := by
    unfold World.call
    split <;> rfl
  have read : catalogOf (readCachedFolder env folder world).2.localStore detailed =
      catalogOf world.localStore detailed := by
    unfold readCachedFolder
    dsimp only
    split
    · rw [loaded]
    · split <;> rw [catalogOf_readRows, loaded]
  unfold loadCachedFolder
  dsimp only
  split <;> exact read

theorem covered_load (covered : archive.catalog.Covered) (folder : FolderInfo) :
    (archiveStep env archive (.load folder)).catalog.Covered := by
  change (catalogOf (loadCachedFolder env folder archive.world).2.localStore _).Covered
  rw [catalogOf_loadCachedFolder]
  exact covered

/-- An operation keeps a complete index complete exactly under its condition. -/
theorem fullyIndexed_step_iff (diskOk : env.DiskOk) (full : FullyIndexed archive) (op : ArchiveOp) :
    FullyIndexed (archiveStep env archive op) ↔ KeepsIndex env archive op := by
  have covered := fullyIndexed_iff_covered.mp full
  rw [fullyIndexed_iff_covered]
  cases op with
  | create target mailEid pending => exact covered_create_iff diskOk covered target mailEid pending
  | prefetch folder limit => exact covered_prefetch_iff diskOk covered folder limit
  | fetch target => exact covered_fetch_iff diskOk covered target
  | sync folder => exact covered_sync_iff diskOk covered folder
  | refreshFolders => exact covered_refreshFolders_iff diskOk covered
  | entryDelete folders ev => exact iff_of_true (covered_entryDelete diskOk covered folders ev) trivial
  | mailDelete elementId => exact iff_of_true (covered_mailDelete diskOk covered elementId) trivial
  | backfill folders => exact iff_of_true (covered_backfill covered folders) trivial
  | reopen version => exact iff_of_true (covered_reopen covered version) trivial
  | load folder => exact iff_of_true (covered_load covered folder) trivial

end Operations

/-- The index is complete in every state of a run exactly if every operation meets
its condition in the state it starts from. -/
theorem index_complete_iff {env : Env} (diskOk : env.DiskOk) {start : Archive}
    (full : FullyIndexed start) (run : List ArchiveOp) :
    (∀ first, first <+: run → FullyIndexed (first.foldl (archiveStep env) start)) ↔
      Guarded (archiveStep env) (KeepsIndex env) start run :=
  Guarded.iff_forall_prefix FullyIndexed (fun _ op full => fullyIndexed_step_iff diskOk full op) full run

/-- A bridge that was never started. -/
def freshArchive : Archive := ⟨⟨sampleWorld [] [], .empty⟩, fun _ => false⟩

theorem fullyIndexed_freshArchive : FullyIndexed freshArchive where
  covers := fun _ hasRow => by cases hasRow
  belongs := fun _ ⟨_, mem, _⟩ => by cases mem

/-- A first start: the folder is listed, its body downloaded, and the mail deleted
at last. -/
theorem index_complete_firstStart :
    let inbox := sampleFolder "inbox" "inboxEntries"
    ∀ first, first <+: [.reopen schemaVersion, .sync inbox, .backfill [inbox], .prefetch inbox 0,
      .mailDelete "m1"] →
      FullyIndexed (first.foldl
        (archiveStep (quietEnv (servingBackend [inbox] [sampleMail "m1"]))) freshArchive) := by
  refine (index_complete_iff (quietEnv_diskOk _) fullyIndexed_freshArchive _).mpr
    ⟨trivial, ?_, trivial, ?_, trivial, trivial⟩
  · intro mail mem id identified hasEml
    cases hasEml
  · simp only [KeepsIndex]
    decide +kernel

/-- Four ways, once the folder is listed, to a mail that is not indexed or to an
index row without a mail: an inlined CREATE with its body, a FETCH, the removal of
the folder, and a migration. -/
def incompleteRuns (inbox : FolderInfo) : List (List ArchiveOp) :=
  [[.create inbox "m2" ⟨sampleMail "m2", some { body := ⟨none, none⟩ }⟩],
    [.fetch ⟨"inbox", "m1", sampleMail "m1", false⟩],
    [.prefetch inbox 0, .refreshFolders],
    [.prefetch inbox 0, .reopen "5", .sync inbox]]

theorem index_incomplete :
    let inbox := sampleFolder "inbox" "inboxEntries"
    ∀ run ∈ incompleteRuns inbox, ¬ FullyIndexed ((.reopen schemaVersion :: .sync inbox :: run).foldl
        (archiveStep (quietEnv (servingBackend [] [sampleMail "m1"]))) freshArchive) := by
  intro inbox run mem full
  have fails : ∀ run ∈ incompleteRuns inbox,
      let final := (.reopen schemaVersion :: .sync inbox :: run).foldl
        (archiveStep (quietEnv (servingBackend [] [sampleMail "m1"]))) freshArchive
      ∃ id ∈ ["m1", "m2"],
        final.disk.hasRow id ∧ final.disk.hasEml id ∧ final.detailed id ∧ ¬ final.disk.indexed id ∨
          final.disk.indexed id ∧ ¬ final.disk.hasRow id := by decide +kernel
  obtain ⟨id, -, ⟨hasRow, hasEml, detailed, missing⟩ | ⟨indexed, missing⟩⟩ := fails run mem
  · exact missing (full.covers id hasRow hasEml detailed)
  · exact missing (full.belongs id indexed)

end TutaBridge.Runs
