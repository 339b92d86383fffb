import TutaBridge.Sync.Folder

/-!
# What a folder load and a folder sync do

One fact for each observable of the two stores, on a working disk: the folder's
mails, the UID counters, the rows, the body files and the index.
-/

namespace TutaBridge.Sync

open TutaBridge.Std Tuta Store Bridge

variable {folder : FolderInfo} {newMails : List Mail} {world : World} (folderId : String)
    (existing : List StoredMail) {metas : List MailMetadata} {elementId : String} {id : String}

variable {env : Env}

/-! ## The batch upsert -/

theorem find?_upsertBatchRow (metadata : MailMetadata)
    (mails : Table String MailMetadata MailMetadata.elementId) (id : String) :
    (LocalStore.upsertBatchRow metadata mails).find? id =
      if id = metadata.elementId then
        some ((mails.find? id).elim metadata (LocalStore.conflictColumnsBatch metadata))
      else mails.find? id :=
  Table.find?_upsert _ _ _ (LocalStore.conflictColumnsBatch_key metadata) _

theorem find?_upsertBatch_of_not_mem
    {mails : Table String MailMetadata MailMetadata.elementId}
    (absent : id ∉ metas.map MailMetadata.elementId) :
    (metas.foldl (fun mails metadata => LocalStore.upsertBatchRow metadata mails) mails).find? id = mails.find? id := by
  induction metas generalizing mails with
  | nil => rfl
  | cons head rest ih =>
    rw [List.map_cons, List.mem_cons, not_or] at absent
    rw [List.foldl_cons, ih absent.2, find?_upsertBatchRow, if_neg absent.1]

/-- A row of the batch ends up with the columns of one of its metadata, but an
existing row keeps its UID. -/
theorem find?_upsertBatch_of_mem (mails : Table String MailMetadata MailMetadata.elementId)
    (listed : id ∈ metas.map MailMetadata.elementId) :
    ∃ row, (metas.foldl (fun mails metadata => LocalStore.upsertBatchRow metadata mails) mails).find? id = some row ∧
      (∃ metadata ∈ metas, metadata.elementId = id ∧ row.folderId = metadata.folderId ∧
        row.mailJson = metadata.mailJson) ∧
      ((∃ old, mails.find? id = some old ∧ row.uid = old.uid) ∨ (mails.find? id = none ∧
          ∃ metadata ∈ metas, metadata.elementId = id ∧ row.uid = metadata.uid)) := by
  induction metas generalizing mails with
  | nil => simp at listed
  | cons head rest ih =>
    rw [List.foldl_cons]
    have after := find?_upsertBatchRow head mails id
    by_cases later : id ∈ rest.map MailMetadata.elementId
    · obtain ⟨row, found, ⟨metadata, mem, same, columns⟩, uid⟩ :=
        ih (LocalStore.upsertBatchRow head mails) later
      refine ⟨row, found, ⟨metadata, List.mem_cons_of_mem _ mem, same, columns⟩, ?_⟩
      by_cases isHead : id = head.elementId
      · rw [if_pos isHead] at after
        rcases uid with ⟨old, oldFound, rowUid⟩ | ⟨missing, _⟩
        · rw [after] at oldFound
          cases earlier : mails.find? id with
          | none =>
            rw [earlier] at oldFound
            cases Option.some.inj oldFound
            exact .inr ⟨rfl, head, List.mem_cons_self, isHead.symm, rowUid⟩
          | some before =>
            rw [earlier] at oldFound
            cases Option.some.inj oldFound
            exact .inl ⟨before, rfl, rowUid⟩
        · rw [after] at missing
          cases missing
      · rw [if_neg isHead] at after
        rw [after] at uid
        rcases uid with existing | ⟨missing, metadata, mem, fresh⟩
        · exact .inl existing
        · exact .inr ⟨missing, metadata, List.mem_cons_of_mem _ mem, fresh⟩
    · have isHead : id = head.elementId := by
        rw [List.map_cons, List.mem_cons] at listed
        exact listed.resolve_right later
      rw [find?_upsertBatch_of_not_mem later, after, if_pos isHead]
      cases earlier : mails.find? id with
      | none =>
        exact ⟨head, rfl, ⟨head, List.mem_cons_self, isHead.symm, rfl, rfl⟩,
          .inr ⟨rfl, head, List.mem_cons_self, isHead.symm, rfl⟩⟩
      | some before =>
        exact ⟨_, rfl, ⟨head, List.mem_cons_self, isHead.symm, rfl, rfl⟩, .inl ⟨before, rfl, rfl⟩⟩

/-- When the ids of the batch are distinct, a row is written once. -/
theorem find?_upsertBatch_of_nodup
    (mails : Table String MailMetadata MailMetadata.elementId) {metadata : MailMetadata}
    (distinct : (metas.map MailMetadata.elementId).Nodup) (listed : metadata ∈ metas) :
    (metas.foldl (fun mails metadata => LocalStore.upsertBatchRow metadata mails) mails).find? metadata.elementId =
      some ((mails.find? metadata.elementId).elim metadata (LocalStore.conflictColumnsBatch metadata)) := by
  induction metas generalizing mails with
  | nil => simp at listed
  | cons head rest ih =>
    rw [List.map_cons, List.nodup_cons] at distinct
    rw [List.foldl_cons]
    rcases List.mem_cons.mp listed with rfl | later
    · rw [find?_upsertBatch_of_not_mem distinct.1, find?_upsertBatchRow, if_pos rfl]
    · have different : metadata.elementId ≠ head.elementId := by
        intro same
        exact distinct.1 (same ▸ List.mem_map.mpr ⟨metadata, later, rfl⟩)
      rw [ih _ distinct.2 later, find?_upsertBatchRow, if_neg different]

/-! ## The prune -/

/-- The store after the prune of a full sync. -/
def prunedStore (folderId : String) (currentIds : List String) (store : LocalStore) : LocalStore :=
  let pruned := store.deleteMailsNotIn folderId currentIds
  pruned.1.foldl (fun store id => (store.deleteEml id).unindexBody id) pruned.2

theorem pruneDeleted_localStore (diskOk : env.DiskOk) (folderId : String) (currentIds : List String) (world : World) :
    (pruneDeleted env folderId currentIds world).localStore = prunedStore folderId currentIds world.localStore := by
  have loop : ∀ (ids : List String) (world : World),
      (ids.foldl (fun world id => (world.write env (·.deleteEml id)).write env (·.unindexBody id))
        world).localStore =
        ids.foldl (fun store id => (store.deleteEml id).unindexBody id) world.localStore := by
    intro ids
    induction ids with
    | nil => intro world; rfl
    | cons id rest ih =>
      intro world
      rw [List.foldl_cons, List.foldl_cons, ih, World.write_localStore diskOk, World.write_localStore diskOk]
  simp only [pruneDeleted, World.call_ok diskOk]
  exact loop _ _

@[simp] theorem pruneDeleted_store (currentIds : List String) (world : World) :
    (pruneDeleted env folderId currentIds world).store = world.store := by
  have loop : ∀ (ids : List String) (world : World),
      (ids.foldl (fun world id => (world.write env (·.deleteEml id)).write env (·.unindexBody id))
        world).store = world.store := by
    intro ids
    induction ids with
    | nil => intro world; rfl
    | cons id rest ih =>
      intro world
      rw [List.foldl_cons, ih, World.write_store, World.write_store]
  unfold pruneDeleted
  dsimp only
  split
  · exact World.call_store _ _
  · rw [loop]
    exact World.call_store _ _

/-- The loop over the deleted ids touches the body files and the index only. -/
theorem prunedLoop (ids : List String) (store : LocalStore) :
    let pruned := ids.foldl (fun store id => (LocalStore.deleteEml id store).unindexBody id) store
    pruned.mails = store.mails ∧ pruned.syncState = store.syncState ∧
      (∀ id, pruned.emls.get? id = if id ∈ ids then none else store.emls.get? id) ∧
      pruned.mailFts = store.mailFts.filter fun row => row.1 ∉ ids := by
  induction ids generalizing store with
  | nil => simp
  | cons head rest ih =>
    obtain ⟨mails, syncState, emls, fts⟩ :=
      ih ((store.deleteEml head).unindexBody head)
    refine ⟨mails, syncState, fun id => ?_, ?_⟩
    · rw [List.foldl_cons, emls id]
      simp only [LocalStore.unindexBody, LocalStore.deleteEml, Dict.get?_erase, List.mem_cons]
      split <;> split <;> simp_all
    · rw [List.foldl_cons, fts]
      simp only [LocalStore.unindexBody, LocalStore.deleteEml, List.filter_filter]
      apply List.filter_congr
      intro row _
      by_cases isHead : row.1 = head <;> simp [isHead]

section

variable (currentIds : List String) (store : LocalStore)

include currentIds store

theorem prunedStore_mails :
    (prunedStore folderId currentIds store).mails = (store.deleteMailsNotIn folderId currentIds).2.mails :=
  (prunedLoop _ _).1

theorem prunedStore_syncState : (prunedStore folderId currentIds store).syncState = store.syncState :=
  (prunedLoop _ _).2.1

theorem prunedStore_emls (id : String) : (prunedStore folderId currentIds store).emls.get? id =
      if id ∈ (store.deleteMailsNotIn folderId currentIds).1 then none
      else store.emls.get? id :=
  (prunedLoop _ _).2.2.1 id

theorem prunedStore_mailFts : (prunedStore folderId currentIds store).mailFts =
      store.mailFts.filter fun row => row.1 ∉ (store.deleteMailsNotIn folderId currentIds).1 :=
  (prunedLoop _ _).2.2.2

end

/-! ## The sync -/

/-- The UIDs a sync hands out to the mails the folder has not seen. -/
def listedUids (world : World) (folderId : String) (newMails : List Mail) : Dict String Nat :=
  LocalStore.assignUids .empty (world.localStore.nextUid folderId)
    (newElementIds (world.store.getFolder folderId) newMails)

/-- The rows a sync upserts. -/
def listedMetas (env : Env) (world : World) (folderId : String) (newMails : List Mail) : List MailMetadata :=
  newMails.map fun mail => mailToMetadata env.codec mail folderId
    (syncedUid (world.store.getFolder folderId) (listedUids world folderId newMails) mail)

/-- The folder after a sync. -/
def listedMails (world : World) (folderId : String) (newMails : List Mail) : List StoredMail :=
  newMails.map (syncedMail (world.store.getFolder folderId) (listedUids world folderId newMails))

theorem allocateNew_ok (diskOk : env.DiskOk) (folderId : String) (ids : List String) (world : World) :
    (allocateNew env folderId ids world).1 =
        LocalStore.assignUids .empty (world.localStore.nextUid folderId) ids ∧
      (allocateNew env folderId ids world).2.store = world.store ∧
      (allocateNew env folderId ids world).2.localStore = (if ids = [] then world.localStore
          else (world.localStore.allocateFolderUids folderId ids).2) := by
  cases ids with
  | nil => exact ⟨rfl, rfl, rfl⟩
  | cons head rest =>
    simp [allocateNew, World.call_ok diskOk, LocalStore.allocateFolderUids]

/-- The disk after the UIDs are allocated. -/
def allocatedStore (world : World) (folderId : String) (newMails : List Mail) : LocalStore :=
  if newElementIds (world.store.getFolder folderId) newMails = [] then world.localStore
  else (world.localStore.allocateFolderUids folderId
    (newElementIds (world.store.getFolder folderId) newMails)).2

theorem allocatedStore_facts (world : World) (folderId : String) (newMails : List Mail) :
    let allocated := allocatedStore world folderId newMails
    allocated.mails = world.localStore.mails ∧ allocated.emls = world.localStore.emls ∧
      allocated.mailFts = world.localStore.mailFts ∧
      ∀ other, allocated.nextUid other = world.localStore.nextUid other + if other = folderId then
          (newElementIds (world.store.getFolder folderId) newMails).length else 0 := by
  unfold allocatedStore
  split
  next none => simp [none]
  next =>
    refine ⟨rfl, rfl, rfl, fun other => ?_⟩
    rw [LocalStore.nextUid_allocateFolderUids]
    split
    next same => rw [same]
    next => rfl

/-- What a sync does to the disk: counters, rows, prune. -/
theorem persistListing_localStore (diskOk : env.DiskOk) (folder : FolderInfo) (newMails : List Mail) (world : World) :
    (persistListing env folder newMails world).2.localStore = prunedStore folder.id (newMails.filterMap Mail.elementId)
        ((allocatedStore world folder.id newMails).upsertMailMetadataBatch
          (listedMetas env world folder.id newMails)) := by
  obtain ⟨uids, _, localStore⟩ := allocateNew_ok diskOk folder.id
    (newElementIds (world.store.getFolder folder.id) newMails) world
  simp only [persistListing, pruneDeleted_localStore diskOk, World.write_localStore diskOk, uids, localStore]
  rfl

theorem persistListing_fst (diskOk : env.DiskOk) (folder : FolderInfo) (newMails : List Mail) (world : World) :
    (persistListing env folder newMails world).1 = listedMails world folder.id newMails := by
  obtain ⟨uids, _, _⟩ := allocateNew_ok diskOk folder.id
    (newElementIds (world.store.getFolder folder.id) newMails) world
  simp only [persistListing, uids]
  rfl

@[simp] theorem allocateNew_store (ids : List String) (world : World) :
    (allocateNew env folderId ids world).2.store = world.store := by
  unfold allocateNew
  split
  · rfl
  · dsimp only
    split <;> exact World.call_store _ _

@[simp] theorem persistListing_store (folder : FolderInfo) (newMails : List Mail) (world : World) :
    (persistListing env folder newMails world).2.store = world.store := by
  simp [persistListing]

theorem listFolder_store (env : Env) (folder : FolderInfo) (world : World) :
    (listFolder env folder world).2.store = world.store := (retry_stores _ _ _).1

theorem listFolder_localStore (env : Env) (folder : FolderInfo) (world : World) :
    (listFolder env folder world).2.localStore = world.localStore := (retry_stores _ _ _).2

/-- A listing that failed changes neither store. -/
theorem syncFolder_of_error {message : String}
    (failed : (listFolder env folder world).1 = .error message) :
    (syncFolder env folder world).2.store = world.store ∧
      (syncFolder env folder world).2.localStore = world.localStore := by
  simp [syncFolder, failed, listFolder_store, listFolder_localStore]

/-- Whatever the disk does, a listing that succeeded becomes the folder. -/
theorem exists_syncFolder_store
    (listed : (listFolder env folder world).1 = .ok newMails) : ∃ newUids, (syncFolder env folder world).2.store =
      world.store.setFolder folder.id (newMails.map (syncedMail (world.store.getFolder folder.id) newUids)) := by
  refine ⟨(allocateNew env folder.id
    (newElementIds (world.store.getFolder folder.id) newMails) (listFolder env folder world).2).1, ?_⟩
  simp only [syncFolder, listed, World.mapStore_store, persistListing_store, listFolder_store]
  simp only [persistListing, listFolder_store]

section

variable (diskOk : env.DiskOk) (listed : (listFolder env folder world).1 = .ok newMails)

include diskOk listed

/-- A listing that succeeded becomes the folder, and the disk follows. -/
theorem syncFolder_of_ok :
    (syncFolder env folder world).2.store = world.store.setFolder folder.id (listedMails world folder.id newMails) ∧
      (syncFolder env folder world).2.localStore = prunedStore folder.id (newMails.filterMap Mail.elementId)
          ((allocatedStore world folder.id newMails).upsertMailMetadataBatch
            (listedMetas env world folder.id newMails)) := by
  have sameStore := listFolder_store env folder world
  have sameDisk := listFolder_localStore env folder world
  have sameListing : ∀ other : World, other.store = world.store → other.localStore = world.localStore →
      listedMails other folder.id newMails = listedMails world folder.id newMails ∧
      allocatedStore other folder.id newMails = allocatedStore world folder.id newMails ∧
      listedMetas env other folder.id newMails = listedMetas env world folder.id newMails := by
    intro other store localStore
    simp [listedMails, listedUids, allocatedStore, listedMetas, store, localStore]
  obtain ⟨mails, disk, metas⟩ := sameListing _ sameStore sameDisk
  simp only [syncFolder, listed, World.mapStore_store, World.mapStore_localStore,
    persistListing_store, persistListing_fst diskOk, persistListing_localStore diskOk, sameStore,
    mails, disk, metas, and_self]

/-- The rows after a sync: the listed mails upserted, the folder's others gone. -/
theorem find?_syncFolder_of_ok (id : String) :
    (syncFolder env folder world).2.localStore.mails.find? id = ((world.localStore.upsertMailMetadataBatch
        (listedMetas env world folder.id newMails)).mails.find? id).filter
          fun row => row.folderId ≠ folder.id ∨ id ∈ newMails.filterMap Mail.elementId := by
  have allocated := (allocatedStore_facts world folder.id newMails).1
  rw [(syncFolder_of_ok diskOk listed).2, prunedStore_mails, LocalStore.find?_deleteMailsNotIn]
  simp only [LocalStore.upsertMailMetadataBatch, allocated]

/-- A sync advances the counter of its folder by the mails that are new to it. -/
theorem nextUid_syncFolder_of_ok (folderId : String) :
    (syncFolder env folder world).2.localStore.nextUid folderId =
      world.localStore.nextUid folderId + if folderId = folder.id then
        (newElementIds (world.store.getFolder folder.id) newMails).length else 0 := by
  have counters := (allocatedStore_facts world folder.id newMails).2.2.2 folderId
  rw [(syncFolder_of_ok diskOk listed).2, ← counters]
  simp only [LocalStore.nextUid, prunedStore_syncState, LocalStore.upsertMailMetadataBatch]

end

/-! ## The sync on a failing disk -/

/-- What every disk call of a sync respects, the sync respects, whichever of them
fail. -/
theorem syncFolder_localStore_rel {R : LocalStore → LocalStore → Prop} (refl : ∀ store, R store store)
    (trans : ∀ {first second third}, R first second → R second third → R first third)
    (listed : (listFolder env folder world).1 = .ok newMails)
    (allocates : ∀ ids store, R store (store.allocateFolderUids folder.id ids).2)
    (upserts : ∀ metas store, R store (store.upsertMailMetadataBatch metas)) (prunes : ∀ store,
      R store (store.deleteMailsNotIn folder.id (newMails.filterMap Mail.elementId)).2)
    (drops : ∀ id store, id ∉ newMails.filterMap Mail.elementId →
      R store (store.deleteEml id) ∧ R store (store.unindexBody id)) :
    R world.localStore (syncFolder env folder world).2.localStore := by
  have allocated : ∀ ids (world : World),
      R world.localStore (allocateNew env folder.id ids world).2.localStore := by
    intro ids world
    unfold allocateNew
    split
    · exact refl _
    · dsimp only
      split <;> exact World.call_localStore_rel refl (allocates ids) world
  have pruned : ∀ world : World, R world.localStore
      (pruneDeleted env folder.id (newMails.filterMap Mail.elementId) world).localStore := by
    intro world
    have loop : ∀ (ids : List String) (world : World), (∀ id ∈ ids, id ∉ newMails.filterMap Mail.elementId) →
        R world.localStore (ids.foldl
          (fun world id => (world.write env (·.deleteEml id)).write env (·.unindexBody id))
          world).localStore := by
      intro ids
      induction ids with
      | nil => exact fun world _ => refl _
      | cons id rest ih =>
        intro world unlisted
        have dropped := fun store => drops id store (unlisted id List.mem_cons_self)
        refine trans ?_ (ih _ fun id mem =>
          unlisted id (List.mem_cons_of_mem _ mem))
        exact trans (World.call_localStore_rel refl (fun store => (dropped store).1) world)
          (World.call_localStore_rel refl (fun store => (dropped store).2) _)
    have fewer := prunes world.localStore
    have unlisted : ∀ id ∈ (world.localStore.deleteMailsNotIn folder.id
        (newMails.filterMap Mail.elementId)).1, id ∉ newMails.filterMap Mail.elementId :=
      fun id deleted => (LocalStore.mem_deleteMailsNotIn_iff.mp deleted).1
    cases fault : env.diskFault world.tick with
    | some error =>
      simp only [pruneDeleted, World.call, fault]
      exact refl _
    | none =>
      simp only [pruneDeleted, World.call, fault]
      exact trans fewer (loop _ { world with localStore := _, tick := _ } unlisted)
  simp only [syncFolder, listed, World.mapStore_localStore]
  rw [← listFolder_localStore env folder world]
  unfold persistListing
  exact trans (allocated _ _) (trans (World.call_localStore_rel refl (upserts _) _) (pruned _))

/-- The second store still has what the first has of a mail: row, body file and
index row. -/
structure KeepsMail (id : String) (before after : LocalStore) : Prop where
  row : before.hasRow id → after.hasRow id
  eml : after.emls.get? id = before.emls.get? id
  index : before.indexed id → after.indexed id

namespace KeepsMail

variable {id : String}

theorem refl (store : LocalStore) : KeepsMail id store store := ⟨fun h => h, rfl, fun h => h⟩

theorem trans {first second third : LocalStore} (early : KeepsMail id first second)
    (late : KeepsMail id second third) : KeepsMail id first third where
  row had := late.row (early.row had)
  eml := late.eml.trans early.eml
  index had := late.index (early.index had)

end KeepsMail

theorem hasRow_upsertMailMetadataBatch (metas : List MailMetadata)
    {store : LocalStore} (had : store.hasRow id) : (store.upsertMailMetadataBatch metas).hasRow id := by
  by_cases listed : id ∈ metas.map MailMetadata.elementId
  · obtain ⟨row, found, _⟩ := find?_upsertBatch_of_mem store.mails listed
    simp only [LocalStore.hasRow, LocalStore.upsertMailMetadataBatch, found, Option.isSome_some]
  · simpa only [LocalStore.hasRow, LocalStore.upsertMailMetadataBatch,
      find?_upsertBatch_of_not_mem listed] using had

/-- A sync takes nothing from a mail that is listed, whatever the disk does. -/
theorem syncFolder_keepsMail (listed : (listFolder env folder world).1 = .ok newMails)
    (current : id ∈ newMails.filterMap Mail.elementId) :
    KeepsMail id world.localStore (syncFolder env folder world).2.localStore := by
  refine syncFolder_localStore_rel .refl .trans listed ?_ ?_ ?_ ?_
  · exact fun ids store => ⟨fun h => h, rfl, fun h => h⟩
  · exact fun metas store => ⟨hasRow_upsertMailMetadataBatch metas, rfl, fun h => h⟩
  · refine fun store => ⟨fun had => ?_, rfl, fun h => h⟩
    obtain ⟨row, found⟩ := Option.isSome_iff_exists.mp had
    simp [LocalStore.hasRow, found, current]
  · intro other store unlisted
    have different : id ≠ other := by
      rintro rfl
      exact unlisted current
    refine ⟨⟨fun h => h, ?_, fun h => h⟩, ⟨fun h => h, rfl, fun had => ?_⟩⟩
    · simp [LocalStore.deleteEml, different]
    · exact (LocalStore.indexed_unindexBody other id store).mpr ⟨different, had⟩

/-- A listing names every mail by an element id, and no id twice. -/
def DistinctIds (mails : List Mail) : Prop :=
  (∀ mail ∈ mails, mail.elementId.isSome) ∧ (mails.map Mail.elementId).Nodup

instance (mails : List Mail) : Decidable (DistinctIds mails) :=
  inferInstanceAs (Decidable (_ ∧ _))

theorem map_elementId_of_identified {mails : List Mail} (identified : ∀ mail ∈ mails, mail.elementId.isSome) :
    mails.map Mail.elementId = (mails.filterMap Mail.elementId).map some := by
  induction mails with
  | nil => rfl
  | cons head rest ih =>
    obtain ⟨elementId, found⟩ := Option.isSome_iff_exists.mp (identified head List.mem_cons_self)
    rw [List.filterMap_cons_some found, List.map_cons, List.map_cons, found,
      ih fun mail mem => identified mail (List.mem_cons_of_mem _ mem)]

/-- The rows of a listing whose mails have ids are named by those. -/
theorem elementIds_listedMetas {mails : List Mail}
    (identified : ∀ mail ∈ mails, mail.elementId.isSome) (world : World) (folderId : String) :
    (listedMetas env world folderId mails).map MailMetadata.elementId = mails.filterMap Mail.elementId := by
  calc (listedMetas env world folderId mails).map MailMetadata.elementId
      = (mails.map Mail.elementId).map fun id => id.getD "" := by
        simp only [listedMetas, List.map_map]
        rfl
    _ = ((mails.filterMap Mail.elementId).map some).map fun id => id.getD "" := by
        rw [map_elementId_of_identified identified]
    _ = mails.filterMap Mail.elementId := by simp [List.map_map, Function.comp_def]

theorem nodup_filterMap_of_distinctIds {mails : List Mail} (distinct : DistinctIds mails) :
    (mails.filterMap Mail.elementId).Nodup :=
  List.Nodup.of_map some (map_elementId_of_identified distinct.1 ▸ distinct.2)

/-- Every listing the server answers with names its mails by distinct ids. -/
def ListsDistinctIds (backend : MailBackend) : Prop :=
  ∀ tick folder mails, backend.loadMailIdsForFolder tick folder = .ok mails → DistinctIds mails

theorem distinctIds_of_listFolder (lists : ListsDistinctIds env.backend)
    (listed : (listFolder env folder world).1 = .ok newMails) : DistinctIds newMails := by
  obtain ⟨tick, answered⟩ := retry_eq_ok_imp listed
  exact lists tick folder newMails answered

/-! ## The UIDs of a listing -/

section Uids

variable {world : World} {folderId : String} {newMails : List Mail}

theorem existingMail_eq_some_imp {existing : List StoredMail}
    {stored : StoredMail} (found : existingMail existing elementId = some stored) :
    stored ∈ existing ∧ stored.elementId = some elementId := by
  have mem := List.mem_of_getLast? found
  simpa using List.mem_filter.mp mem

theorem existingMail_eq_none_iff {existing : List StoredMail} :
    existingMail existing elementId = none ↔ ∀ stored ∈ existing, stored.elementId ≠ some elementId := by
  simp [existingMail]

/-- A listed mail keeps the UID of the folder's copy, or it is new to the folder
and gets the counter value at its position among the new ids. -/
theorem syncedUid_cases (world : World) (folderId : String) {mail : Mail} (mem : mail ∈ newMails)
    (identified : mail.elementId = some elementId) :
    let existing := world.store.getFolder folderId
    let uid := syncedUid existing (listedUids world folderId newMails) mail
    (∃ stored ∈ existing, stored.elementId = some elementId ∧ uid = stored.uid) ∨
      ((∀ stored ∈ existing, stored.elementId ≠ some elementId) ∧
        ∃ index, (newElementIds existing newMails)[index]? = some elementId ∧
          uid = (world.localStore.nextUid folderId + index) % 2 ^ 32) := by
  intro existing uid
  cases found : existingMail existing elementId with
  | some stored =>
    obtain ⟨inFolder, same⟩ := existingMail_eq_some_imp found
    exact .inl ⟨stored, inFolder, same, by simp [uid, syncedUid, identified, found]⟩
  | none =>
    have unseen : elementId ∈ newElementIds existing newMails := by
      simp only [newElementIds, List.mem_filter, List.mem_filterMap, List.mem_reverse]
      exact ⟨⟨mail, mem, identified⟩, by simp [found]⟩
    obtain ⟨handed, handedOut⟩ := Option.isSome_iff_exists.mp
      (LocalStore.isSome_get?_assignUids .empty (world.localStore.nextUid folderId) (.inl unseen))
    have uidEq : uid = handed := by
      simp only [uid, syncedUid, identified, Option.bind_some, found, Option.map_none,
        Option.none_or, listedUids, existing] at handedOut ⊢
      rw [handedOut]
      rfl
    rcases LocalStore.get?_assignUids handedOut with ⟨absent, _⟩ | ⟨index, atIndex, value⟩
    · exact absurd unseen absent
    · exact .inr ⟨existingMail_eq_none_iff.mp found, index, atIndex, uidEq.trans value⟩

@[simp] theorem syncedMail_mail (newUids : Dict String Nat)
    (mail : Mail) : (syncedMail existing newUids mail).mail = mail := by
  unfold syncedMail
  split <;> rfl

@[simp] theorem syncedMail_uid (newUids : Dict String Nat) (mail : Mail) :
    (syncedMail existing newUids mail).uid = syncedUid existing newUids mail := by
  unfold syncedMail
  split <;> rfl

@[simp] theorem syncedMail_elementId (newUids : Dict String Nat)
    (mail : Mail) : (syncedMail existing newUids mail).elementId = mail.elementId := by
  simp [StoredMail.elementId]

end Uids

end TutaBridge.Sync
