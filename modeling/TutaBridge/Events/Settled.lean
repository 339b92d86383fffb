import TutaBridge.Events.Cursor
import TutaBridge.Events.MailChanges

/-!
# What a batch leaves settled

After a `MailSetEntry` DELETE its mail is out of the folder, and after a
fallback sync the folder and its rows are what the server listed. The rest of
the batch leaves both so, and where they are so already, the event or the sync
has nothing left to do.
-/

namespace TutaBridge.Events

open TutaBridge.Std Tuta Store Bridge Sync

variable {target : FolderInfo × List Mail} {entriesListId : String} {settled world : World}

variable {env : Env} {folders : List FolderInfo}

/-- The disk takes every write, and the server gives the right answers, and always the same. -/
structure Reliable (env : Env) : Prop where
  diskOk : env.DiskOk
  steady : Steady env.backend
  faithful : Faithful env.backend
  lists : ListsDistinctIds env.backend

/-- The same mails in every folder and the same rows. -/
structure SameStores (left right : World) : Prop where
  folders : ∀ folderId, left.store.getFolder folderId = right.store.getFolder folderId
  rows : ∀ id, left.localStore.mails.find? id = right.localStore.mails.find? id

theorem SameStores.refl (world : World) : SameStores world world := ⟨fun _ => rfl, fun _ => rfl⟩

/-! ## The events behind the creates -/

/-- A delete takes the mail out of its folder, and drops the row of a mail that
is then in no folder. -/
theorem delete_spec (diskOk : env.DiskOk) {ev : EntityUpdateEvent} {pair : String × String}
    (found : entryPair folders ev = some pair) (world : World) :
    let after := applyMailSetEntryDelete env folders world ev
    (∀ folderId, after.store.getFolder folderId =
        if folderId = pair.1 then MailStore.without pair.2 (world.store.getFolder folderId)
        else world.store.getFolder folderId) ∧
      ((∀ folderId, ¬ after.store.Holds folderId pair.2) → after.localStore.mails.find? pair.2 = none) ∧
      ∀ id, id ≠ pair.2 ∨ (∃ folderId, after.store.Holds folderId pair.2) →
        after.localStore.mails.find? id = world.localStore.mails.find? id := by
  obtain ⟨at_, target, decoded, known, targetId⟩ := entryPair_eq_some_imp found
  have folders : ∀ folderId, (world.store.removeMailFromFolder target.id pair.2).2.getFolder
      folderId = if folderId = pair.1 then MailStore.without pair.2 (world.store.getFolder folderId)
        else world.store.getFolder folderId := by
    intro folderId
    rw [MailStore.getFolder_removeMailFromFolder, ← targetId]
    split
    next same => rw [same]
    next => rfl
  simp only [applyMailSetEntryDelete, decoded, known]
  split
  next anywhere =>
    refine ⟨folders, fun nowhere => ?_, fun _ _ => rfl⟩
    obtain ⟨folderId, held⟩ := MailStore.isMailAnywhere_iff.mp anywhere
    exact absurd held (nowhere folderId)
  next nowhere =>
    rw [World.deleteMail_localStore diskOk, World.deleteMail_store]
    refine ⟨folders, fun _ => ?_, fun id keeps => ?_⟩
    · exact (LocalStore.find?_deleteMailRow pair.2 world.localStore pair.2).trans (if_pos rfl)
    · refine (LocalStore.find?_deleteMailRow pair.2 world.localStore id).trans (if_neg ?_)
      rcases keeps with different | held
      · exact different
      · exact absurd (MailStore.isMailAnywhere_iff.mpr held) nowhere

/-- What a delete does to a folder. -/
def removal (folders : List FolderInfo) (folderId : String) (ev : EntityUpdateEvent) : Option MailChange :=
  (entryPair folders ev).bind fun pair => if pair.1 = folderId then some (.forget pair.2) else none

/-- A batch of deletes applies its removals in order. -/
theorem getFolder_deletes (diskOk : env.DiskOk) (deletes : List EntityUpdateEvent) (world : World)
    (folderId : String) :
    (deletes.foldl (applyMailSetEntryDelete env folders) world).store.getFolder folderId =
      (deletes.filterMap (removal folders folderId)).foldl MailChange.onMails (world.store.getFolder folderId) := by
  induction deletes generalizing world with
  | nil => rfl
  | cons ev rest ih =>
    rw [List.foldl_cons, ih]
    cases found : entryPair folders ev with
    | none => simp [delete_of_no_pair found, removal, found]
    | some pair =>
      rw [(delete_spec diskOk found world).1 folderId]
      by_cases here : pair.1 = folderId
      · simp [removal, found, here, MailChange.onMails]
      · simp [removal, found, here, Ne.symm here]

section Deletes

variable {deletes : List EntityUpdateEvent} {world : World} {id : String}

/-- A mail that the deletes take out of its last folder has no row. -/
theorem find?_deletes_of_gone (diskOk : env.DiskOk) {ev : EntityUpdateEvent} (mem : ev ∈ deletes) {folderId : String}
    (found : entryPair folders ev = some (folderId, id))
    (nowhere : ∀ folderId, ¬ (deletes.foldl (applyMailSetEntryDelete env folders) world).store.Holds folderId id) :
    (deletes.foldl (applyMailSetEntryDelete env folders) world).localStore.mails.find? id = none := by
  refine foldl_establishes (fun (ev : EntityUpdateEvent) (after : World) => ∀ folderId,
    entryPair folders ev = some (folderId, id) → (∀ folderId, ¬ after.store.Holds folderId id) →
      after.localStore.mails.find? id = none) (fun _ => True) (fun _ _ _ _ => trivial) ?_ ?_ trivial ev mem folderId
        found nowhere
  · exact fun after ev _ _ folderId found nowhere => (delete_spec diskOk found after).2.1 nowhere
  · intro after ev _ other _ _ gone folderId found nowhere
    cases named : entryPair folders other with
    | none =>
      rw [delete_of_no_pair named] at nowhere ⊢
      exact gone folderId found nowhere
    | some pair =>
      obtain ⟨-, rowGone, rowKept⟩ := delete_spec diskOk named after
      rcases eq_or_ne id pair.2 with rfl | different
      · exact rowGone nowhere
      · rw [rowKept id (.inl different)]
        refine gone folderId found fun source held =>
          nowhere source ((delete_facts other after (source, id)).1.mpr ⟨held, ?_⟩)
        rw [named]
        rintro ⟨⟩
        exact different rfl

/-- A mail that the deletes do not name, or leave in some folder, keeps its row. -/
theorem find?_deletes_of_kept (diskOk : env.DiskOk)
    (kept : (∀ ev ∈ deletes, ∀ folderId, entryPair folders ev ≠ some (folderId, id)) ∨
      ∃ folderId, (deletes.foldl (applyMailSetEntryDelete env folders) world).store.Holds folderId id) :
    (deletes.foldl (applyMailSetEntryDelete env folders) world).localStore.mails.find? id =
      world.localStore.mails.find? id := by
  induction deletes using List.reverseRecOn with
  | nil => rfl
  | append_singleton first ev ih =>
    rw [List.foldl_append, List.foldl_cons, List.foldl_nil] at kept ⊢
    rw [← ih (kept.imp (fun unnamed other mem => unnamed other (List.mem_append_left _ mem))
      (Exists.imp fun folderId held => ((delete_facts ev _ (folderId, id)).1.mp held).1))]
    cases named : entryPair folders ev with
    | none => rw [delete_of_no_pair named]
    | some pair =>
      refine (delete_spec diskOk named _).2.2 id ?_
      rcases eq_or_ne id pair.2 with rfl | different
      · exact .inr (kept.resolve_left fun unnamed => unnamed ev (by simp) pair.1 named)
      · exact .inl different

end Deletes

/-- The deletes of a batch, and behind them its mail events. -/
def applyEvents (env : Env) (folders : List FolderInfo) (batch : EntityUpdateBatch) (world : World) : World :=
  (batch.updates.filter isMailEvent).foldl (applyMailEvent env)
    ((batch.updates.filter isEntryDelete).foldl (applyMailSetEntryDelete env folders) world)

/-- A delete of the batch takes the mail out of the folder. -/
def TakenOut (folders : List FolderInfo) (batch : EntityUpdateBatch) (folderId id : String) : Prop :=
  ∃ ev ∈ batch.updates, isEntryDelete ev ∧ entryPair folders ev = some (folderId, id)

/-- A mail event of the batch makes the handler forget the mail. -/
def Forgotten (env : Env) (batch : EntityUpdateBatch) (id : String) : Prop :=
  ∃ ev ∈ batch.updates, isMailEvent ev ∧ Forgets env id atRest ev

/-- What the mail events of a batch do, and before them its deletes in a folder. -/
def mailChanges (env : Env) (batch : EntityUpdateBatch) : List MailChange :=
  (batch.updates.filter isMailEvent).filterMap (mailChange env)

def folderChanges (env : Env) (folders : List FolderInfo) (batch : EntityUpdateBatch) (folderId : String) :
    List MailChange :=
  (batch.updates.filter isEntryDelete).filterMap (removal folders folderId) ++ mailChanges env batch

section Events

variable {batch : EntityUpdateBatch} {world : World} {id : String}

theorem forget_mem_mailChanges_iff : .forget id ∈ mailChanges env batch ↔ Forgotten env batch id := by
  have change : ∀ ev, mailChange env ev = some (.forget id) ↔ Forgets env id atRest ev := by
    intro ev
    unfold mailChange Forgets
    cases ev.operation with
    | delete => simp
    | update => cases (resolveMail env ev atRest).1 <;> simp
    | create | other => simp
  simp only [mailChanges, Forgotten, List.mem_filterMap, List.mem_filter, change, and_assoc]

theorem forget_mem_folderChanges_iff {folderId : String} : .forget id ∈ folderChanges env folders batch folderId ↔
      TakenOut folders batch folderId id ∨ Forgotten env batch id := by
  have removes : ∀ ev, removal folders folderId ev = some (.forget id) ↔
      entryPair folders ev = some (folderId, id) := by
    intro ev
    cases found : entryPair folders ev with
    | none => simp [removal, found]
    | some pair => simp [removal, found, Prod.ext_iff]
  rw [folderChanges, List.mem_append, forget_mem_mailChanges_iff]
  simp only [TakenOut, List.mem_filterMap, List.mem_filter, removes, and_assoc]

theorem steady_forgets (steady : Steady env.backend) (ev : EntityUpdateEvent) (world : World) :
    Forgets env id world ev ↔ Forgets env id atRest ev := by
  rw [Forgets, Forgets, steady.resolveMail ev world]

/-- The mail events take mails away and add none. -/
theorem holds_applyEvents_iff_deletes (steady : Steady env.backend) (world : World) (folderId id : String) :
    (applyEvents env folders batch world).store.Holds folderId id ↔
      ((batch.updates.filter isEntryDelete).foldl (applyMailSetEntryDelete env folders) world).store.Holds folderId id ∧
        ¬ Forgotten env batch id := by
  have always : (fun world ev => ¬ Forgets env id world ev) = fun _ ev => ¬ Forgets env id atRest ev :=
    funext₂ fun world ev => propext (not_congr (steady_forgets steady ev world))
  refine (Guarded.foldl_iff (fun after : World => members after (folderId, id))
    (fun after ev => (mailEvent_facts ev after (folderId, id)).1) _ _).trans (and_congr_right fun _ => ?_)
  rw [always, Guarded.const_iff]
  simp only [Forgotten, List.mem_filter, and_imp, not_exists, not_and]

theorem holds_applyEvents_iff (steady : Steady env.backend) (world : World) (folderId id : String) :
    (applyEvents env folders batch world).store.Holds folderId id ↔
      world.store.Holds folderId id ∧ ¬ TakenOut folders batch folderId id ∧ ¬ Forgotten env batch id := by
  rw [holds_applyEvents_iff_deletes steady, ← and_assoc]
  refine and_congr_left fun _ => (Guarded.foldl_iff (fun after : World => members after (folderId, id))
    (fun after ev => (delete_facts ev after (folderId, id)).1) _ _).trans (and_congr_right fun _ => ?_)
  rw [Guarded.const_iff]
  simp only [TakenOut, List.mem_filter, and_imp, not_exists, not_and, ne_eq]

section Effect

/-- A mail is forgotten, or taken out of its last folder, or neither. -/
theorem gone_or_kept (env : Env) (folders : List FolderInfo) (batch : EntityUpdateBatch) (world : World)
    (id : String) :
    (Forgotten env batch id ∨ (∃ folderId, TakenOut folders batch folderId id) ∧
        ∀ folderId, ¬ (applyEvents env folders batch world).store.Holds folderId id) ∨
      ¬ Forgotten env batch id ∧ ((∀ folderId, ¬ TakenOut folders batch folderId id) ∨
        ∃ folderId, (applyEvents env folders batch world).store.Holds folderId id) := by
  rw [← not_exists, ← not_exists]
  tauto

variable (reliable : Reliable env) (faithfulEvents : ∀ ev ∈ batch.updates, FaithfulEvent env.backend ev)

include reliable faithfulEvents

theorem applyEvents_changes (world : World) :
    let deleted := (batch.updates.filter isEntryDelete).foldl (applyMailSetEntryDelete env folders) world
    (∀ folderId, (applyEvents env folders batch world).store.getFolder folderId =
        (mailChanges env batch).foldl MailChange.onMails (deleted.store.getFolder folderId)) ∧
      ∀ id, (applyEvents env folders batch world).localStore.mails.find? id =
        (mailChanges env batch).foldl (MailChange.onRow env.codec id) (deleted.localStore.mails.find? id) :=
  mailEvents_changes reliable.diskOk reliable.steady reliable.faithful
    (fun ev mem => faithfulEvents ev (List.mem_of_mem_filter mem)) _

theorem getFolder_applyEvents (world : World) (folderId : String) :
    (applyEvents env folders batch world).store.getFolder folderId =
      (folderChanges env folders batch folderId).foldl MailChange.onMails (world.store.getFolder folderId) := by
  rw [(applyEvents_changes reliable faithfulEvents world).1, getFolder_deletes reliable.diskOk, folderChanges,
    List.foldl_append]

/-- A mail that is forgotten, or taken out of its last folder, has no row. -/
theorem find?_applyEvents_of_gone (gone : Forgotten env batch id ∨ (∃ folderId, TakenOut folders batch folderId id) ∧
      ∀ folderId, ¬ (applyEvents env folders batch world).store.Holds folderId id) :
    (applyEvents env folders batch world).localStore.mails.find? id = none := by
  rw [(applyEvents_changes reliable faithfulEvents world).2]
  by_cases forgotten : Forgotten env batch id
  · obtain ⟨before, after, split⟩ := List.append_of_mem (forget_mem_mailChanges_iff.mpr forgotten)
    rw [split, List.foldl_append, List.foldl_cons, MailChange.onRow_forget, MailChange.foldl_onRow_none]
  · obtain ⟨⟨folderId, ev, mem, isDelete, found⟩, nowhere⟩ := gone.resolve_left forgotten
    rw [find?_deletes_of_gone reliable.diskOk (List.mem_filter.mpr ⟨mem, isDelete⟩) found fun folderId held =>
      nowhere folderId ((holds_applyEvents_iff_deletes reliable.steady world folderId id).mpr ⟨held, forgotten⟩),
      MailChange.foldl_onRow_none]

/-- A mail that is not taken out, or stays in some folder, keeps its row but for
the changes. -/
theorem find?_applyEvents_of_kept (kept : (∀ folderId, ¬ TakenOut folders batch folderId id) ∨
      ∃ folderId, (applyEvents env folders batch world).store.Holds folderId id) :
    (applyEvents env folders batch world).localStore.mails.find? id =
      (mailChanges env batch).foldl (MailChange.onRow env.codec id) (world.localStore.mails.find? id) := by
  rw [(applyEvents_changes reliable faithfulEvents world).2, find?_deletes_of_kept reliable.diskOk]
  refine kept.imp (fun unnamed ev mem folderId found => ?_) (Exists.imp fun folderId held => ?_)
  · exact unnamed folderId ⟨ev, List.mem_of_mem_filter mem, List.of_mem_filter mem, found⟩
  · exact ((holds_applyEvents_iff_deletes reliable.steady world folderId id).mp held).1

end Effect

end Events

/-! ## Fallback syncs -/

/-- The folder a fallback sync replaces and what the server lists for it. -/
def resynced (env : Env) (folders : List FolderInfo) (entriesListId : String) :
    Option (FolderInfo × List Mail) :=
  (folderByEntries folders entriesListId).bind fun folder =>
    (env.backend.loadMailIdsForFolder 0 folder).toOption.map fun mails => (folder, mails)

theorem resynced_eq_some_imp (listed : resynced env folders entriesListId = some target) :
    folderByEntries folders entriesListId = some target.1 ∧
      env.backend.loadMailIdsForFolder 0 target.1 = .ok target.2 := by
  obtain ⟨folder, known, answered⟩ := Option.bind_eq_some_iff.mp listed
  obtain ⟨mails, found, rfl⟩ := Option.map_eq_some_iff.mp answered
  refine ⟨known, ?_⟩
  cases result : env.backend.loadMailIdsForFolder 0 folder with
  | error message => simp [result, Except.toOption] at found
  | ok value => simpa [result, Except.toOption] using found

/-- The element ids of a listing. -/
def listedIds (target : FolderInfo × List Mail) : List String :=
  target.2.filterMap Mail.elementId

/-- What the sync of a folder writes over an existing row of a listed mail. -/
def listedColumns (env : Env) (folder : FolderInfo) (mail : Mail) (row : MailMetadata) :
    MailMetadata :=
  LocalStore.conflictColumnsBatch (mailToMetadata env.codec mail folder.id 0) row

theorem Steady.listFolder (steady : Steady env.backend) (folder : FolderInfo) (world : World) :
    (Sync.listFolder env folder world).1 = env.backend.loadMailIdsForFolder 0 folder := by
  have retries : ∀ (count : Nat) (world : World),
      (retry (fun tick => env.backend.loadMailIdsForFolder tick folder) count world).1 =
        env.backend.loadMailIdsForFolder 0 folder := by
    intro count
    induction count with
    | zero => exact fun world => steady.listed world.tick folder
    | succ count ih =>
      intro world
      have asked : ((world.ask fun tick => env.backend.loadMailIdsForFolder tick folder)).1 =
          env.backend.loadMailIdsForFolder 0 folder := steady.listed world.tick folder
      unfold retry
      dsimp only
      split
      next answered => rw [← asked, answered]
      next => exact ih _
  exact retries maxRetries world

theorem fallbackSync_of_none (reliable : Reliable env)
    (unlisted : resynced env folders entriesListId = none) (world : World) :
    SameStores (fallbackSync env folders world entriesListId) world := by
  unfold fallbackSync
  cases known : folderByEntries folders entriesListId with
  | none => exact .refl world
  | some folder =>
    have listing := reliable.steady.listFolder folder world
    cases answer : env.backend.loadMailIdsForFolder 0 folder with
    | ok mails => simp [resynced, known, answer, Except.toOption] at unlisted
    | error message =>
      obtain ⟨store, localStore⟩ := syncFolder_of_error (listing.trans answer)
      exact ⟨fun _ => by rw [store], fun _ => by rw [localStore]⟩

/-- A fallback sync makes the folder what the server lists, writes the columns of
every listed mail's row, and drops the folder's other rows. -/
theorem fallbackSync_of_some (reliable : Reliable env) (listed : resynced env folders entriesListId = some target)
    (world : World) :
    let after := fallbackSync env folders world entriesListId
    (∀ folderId, after.store.getFolder folderId =
        if folderId = target.1.id then listedMails world target.1.id target.2
        else world.store.getFolder folderId) ∧
      (∀ mail ∈ target.2, ∀ id, mail.elementId = some id → ∃ row,
        after.localStore.mails.find? id = some row ∧ listedColumns env target.1 mail row = row ∧
          ∀ old, world.localStore.mails.find? id = some old → row = listedColumns env target.1 mail old) ∧
      ∀ id, id ∉ listedIds target → after.localStore.mails.find? id =
        (world.localStore.mails.find? id).filter fun row => row.folderId ≠ target.1.id := by
  obtain ⟨folder, mails⟩ := target
  obtain ⟨known, answer⟩ := resynced_eq_some_imp listed
  have listing : (Sync.listFolder env folder world).1 = .ok mails :=
    (reliable.steady.listFolder folder world).trans answer
  have distinct := reliable.lists 0 folder mails answer
  have metaIds := @elementIds_listedMetas env mails distinct.1 world folder.id
  have synced : fallbackSync env folders world entriesListId = (syncFolder env folder world).2 := by
    simp [fallbackSync, known]
  have rows := find?_syncFolder_of_ok reliable.diskOk listing
  dsimp only
  rw [synced]
  refine ⟨fun folderId => ?_, fun mail mem id identified => ?_, fun id unlisted => ?_⟩
  · rw [(syncFolder_of_ok reliable.diskOk listing).1, MailStore.getFolder_setFolder]
  · have inIds : id ∈ mails.filterMap Mail.elementId :=
      List.mem_filterMap.mpr ⟨mail, mem, identified⟩
    have inMetas : mailToMetadata env.codec mail folder.id (syncedUid
        (world.store.getFolder folder.id) (listedUids world folder.id mails) mail) ∈
        listedMetas env world folder.id mails := List.mem_map.mpr ⟨mail, mem, rfl⟩
    have key : (mailToMetadata env.codec mail folder.id (syncedUid
        (world.store.getFolder folder.id) (listedUids world folder.id mails) mail)).elementId =
        id := by simp [mailToMetadata, identified]
    have upserted := find?_upsertBatch_of_nodup world.localStore.mails
      (metaIds ▸ nodup_filterMap_of_distinctIds distinct) inMetas
    rw [key] at upserted
    rw [rows id, LocalStore.upsertMailMetadataBatch, upserted]
    simp only [Option.filter_some, inIds, or_true, decide_true, if_true, Option.some.injEq, exists_eq_left']
    cases old : world.localStore.mails.find? id with
    | none => exact ⟨rfl, by simp⟩
    | some before =>
      refine ⟨rfl, ?_⟩
      rintro _ ⟨⟩
      rfl
  · have notMeta : id ∉ (listedMetas env world folder.id mails).map MailMetadata.elementId := by
      rw [metaIds]
      exact unlisted
    have unlistedHere : id ∉ mails.filterMap Mail.elementId := unlisted
    rw [rows id, LocalStore.upsertMailMetadataBatch, find?_upsertBatch_of_not_mem notMeta]
    simp only [unlistedHere, or_false]

/-- What a client sees of a folder: each mail with its UID. -/
def entries (world : World) (folderId : String) : List (Mail × Nat) :=
  (world.store.getFolder folderId).map fun stored => (stored.mail, stored.uid)

/-- Two syncs that do not get in each other's way. -/
structure Apart (left right : FolderInfo × List Mail) : Prop where
  folders : left.1.id ≠ right.1.id
  mails : ∀ id ∈ listedIds left, id ∉ listedIds right

/-- The folder and its rows are as its sync leaves them. -/
structure Settled (env : Env) (target : FolderInfo × List Mail) (world : World) : Prop where
  folder : ∃ uidOf : Mail → Nat, entries world target.1.id = target.2.map fun mail => (mail, uidOf mail)
  rows : ∀ mail ∈ target.2, ∀ id, mail.elementId = some id → ∃ row,
    world.localStore.mails.find? id = some row ∧ listedColumns env target.1 mail row = row
  pruned : ∀ id row, world.localStore.mails.find? id = some row → row.folderId = target.1.id →
    id ∈ listedIds target

theorem settled_fallbackSync (reliable : Reliable env) (listed : resynced env folders entriesListId = some target)
    (world : World) : Settled env target (fallbackSync env folders world entriesListId) := by
  obtain ⟨mails, listedRows, otherRows⟩ := fallbackSync_of_some reliable listed world
  refine ⟨⟨syncedUid (world.store.getFolder target.1.id) (listedUids world target.1.id target.2),
    ?_⟩, fun mail mem id identified => ?_, fun id row found inFolder => ?_⟩
  · rw [entries, mails, if_pos rfl, listedMails, List.map_map]
    simp [Function.comp_def]
  · obtain ⟨row, found, columns, _⟩ := listedRows mail mem id identified
    exact ⟨row, found, columns⟩
  · by_contra unlisted
    rw [otherRows id unlisted] at found
    obtain ⟨_, kept⟩ := Option.filter_eq_some_iff.mp found
    simp [inFolder] at kept

/-- A row that no sync lists and that is in none of their folders stays. -/
theorem fallbackSync_keeps_row (reliable : Reliable env) (listed : resynced env folders entriesListId = some target)
    {world : World} {id : String} (unlisted : id ∉ listedIds target)
    (elsewhere : ∀ row, world.localStore.mails.find? id = some row → row.folderId ≠ target.1.id) :
    (fallbackSync env folders world entriesListId).localStore.mails.find? id = world.localStore.mails.find? id := by
  rw [(fallbackSync_of_some reliable listed world).2.2 id unlisted]
  cases found : world.localStore.mails.find? id with
  | none => rfl
  | some row => simp [Option.filter, elsewhere row found]

/-- The row of a listed mail is in the folder that lists it. -/
theorem folderId_of_listedColumns {folder : FolderInfo} {mail : Mail} {row : MailMetadata}
    (columns : listedColumns env folder mail row = row) : row.folderId = folder.id := by
  rw [← columns]
  rfl

theorem Settled.of_apart (reliable : Reliable env) {target other : FolderInfo × List Mail}
    (listed : resynced env folders entriesListId = some other) (apart : Apart target other)
    {world : World} (settled : Settled env target world) :
    Settled env target (fallbackSync env folders world entriesListId) := by
  obtain ⟨mails, listedRows, otherRows⟩ := fallbackSync_of_some reliable listed world
  refine ⟨?_, fun mail mem id identified => ?_, fun id row found inFolder => ?_⟩
  · obtain ⟨uidOf, same⟩ := settled.folder
    refine ⟨uidOf, ?_⟩
    rw [entries, mails, if_neg apart.folders]
    exact same
  · obtain ⟨row, found, columns⟩ := settled.rows mail mem id identified
    refine ⟨row, ?_, columns⟩
    rw [fallbackSync_keeps_row reliable listed
      (apart.mails id (List.mem_filterMap.mpr ⟨mail, mem, identified⟩)), found]
    intro old oldFound
    cases found.symm.trans oldFound
    rw [folderId_of_listedColumns columns]
    exact apart.folders
  · by_cases isListed : id ∈ listedIds other
    · obtain ⟨mail, mem, identified⟩ := List.mem_filterMap.mp isListed
      obtain ⟨written, writtenFound, columns, _⟩ := listedRows mail mem id identified
      cases found.symm.trans writtenFound
      exact absurd (inFolder.symm.trans (folderId_of_listedColumns columns)) apart.folders
    · rw [otherRows id isListed] at found
      exact settled.pruned id row (Option.filter_eq_some_iff.mp found).1 inFolder

theorem Settled.congr {left right : World}
    (same : SameStores left right) (settled : Settled env target right) :
    Settled env target left where
  folder := by
    rw [entries, same.folders]
    exact settled.folder
  rows := by simpa only [same.rows] using settled.rows
  pruned := by simpa only [same.rows] using settled.pruned

/-! ## All the fallback syncs of a batch -/

section Fallbacks

variable {order : List String}

/-- The folder is replaced by some sync of the list. -/
def Target (env : Env) (folders : List FolderInfo) (order : List String)
    (target : FolderInfo × List Mail) : Prop :=
  ∃ entriesListId ∈ order, resynced env folders entriesListId = some target

/-- No two syncs of different folders touch one folder or one mail. -/
def Compatible (env : Env) (folders : List FolderInfo) (order : List String) : Prop :=
  ∀ left right, Target env folders order left → Target env folders order right →
    left = right ∨ Apart left right

/-- Every folder the syncs of a batch replace is settled after the last of them. -/
theorem settled_fallbacks (reliable : Reliable env) (compatible : Compatible env folders order)
    (world : World) (isTarget : Target env folders order target) :
    Settled env target (order.foldl (fallbackSync env folders) world) := by
  obtain ⟨entriesListId, inOrder, listed⟩ := isTarget
  refine foldl_establishes (fun entriesListId (after : World) => ∀ target,
    resynced env folders entriesListId = some target → Settled env target after)
    (fun _ => True) (fun _ _ _ _ => trivial) ?_ ?_ trivial entriesListId inOrder target listed
  · exact fun after entriesListId _ _ target listed =>
      settled_fallbackSync reliable listed after
  · intro after entriesListId mem other otherMember _ settled target listed
    cases otherListed : resynced env folders other with
    | none => exact (settled target listed).congr (fallbackSync_of_none reliable otherListed after)
    | some otherTarget =>
      rcases compatible target otherTarget ⟨entriesListId, mem, listed⟩
        ⟨other, otherMember, otherListed⟩ with rfl | apart
      · exact settled_fallbackSync reliable otherListed after
      · exact (settled target listed).of_apart reliable otherListed apart

/-- The syncs touch no other folder, and of the mails they do not list they drop
the rows in their folders. -/
theorem fallbacks_elsewhere (reliable : Reliable env) (world : World) :
    let after := order.foldl (fallbackSync env folders) world
    (∀ folderId, (∀ target, Target env folders order target → target.1.id ≠ folderId) →
        after.store.getFolder folderId = world.store.getFolder folderId) ∧
      ∀ id, (∀ target, Target env folders order target → id ∉ listedIds target) → ∀ row,
        after.localStore.mails.find? id = some row ↔ world.localStore.mails.find? id = some row ∧
          ∀ target, Target env folders order target → target.1.id ≠ row.folderId := by
  refine ⟨fun folderId untouched => ?_, fun id unlisted row => ?_⟩
  · refine List.foldlRecOn (motive := fun after : World =>
      after.store.getFolder folderId = world.store.getFolder folderId) _ _ rfl ?_
    intro after same entriesListId mem
    cases listed : resynced env folders entriesListId with
    | none => rw [(fallbackSync_of_none reliable listed after).folders, same]
    | some target =>
      rw [(fallbackSync_of_some reliable listed after).1,
        if_neg (untouched target ⟨entriesListId, mem, listed⟩).symm, same]
  · induction order generalizing world with
    | nil => simp [Target]
    | cons entriesListId rest ih =>
      have targets : ∀ target, Target env folders (entriesListId :: rest) target ↔
          resynced env folders entriesListId = some target ∨ Target env folders rest target := by
        simp [Target]
      simp only [targets, or_imp, forall_and] at unlisted ⊢
      rw [List.foldl_cons, ih (fallbackSync env folders world entriesListId) unlisted.2, ← and_assoc]
      refine and_congr_left fun _ => ?_
      cases listed : resynced env folders entriesListId with
      | none => simp [(fallbackSync_of_none reliable listed world).rows]
      | some target =>
        rw [(fallbackSync_of_some reliable listed world).2.2 id (unlisted.1 target listed),
          Option.filter_eq_some_iff]
        simp [@eq_comm _ row.folderId]

/-- The UID that a sync keeps for a mail it lists. -/
def keptUid (existing : List StoredMail) (id : String) : Option Nat :=
  (existingMail existing id).map StoredMail.uid

theorem keptUid_congr {left right : List StoredMail} (same : (left.map fun stored => (stored.elementId, stored.uid)) =
      right.map fun stored => (stored.elementId, stored.uid)) (id : String) : keptUid left id = keptUid right id := by
  have stamped : ∀ mails : List StoredMail, keptUid mails id =
      (((mails.map fun stored => (stored.elementId, stored.uid)).filter
        fun stamp => stamp.1 = some id).getLast?).map Prod.snd := by
    intro mails
    rw [List.filter_map, List.getLast?_map, Option.map_map]
    rfl
  rw [stamped, stamped, same]

theorem keptUid_without {id other : String} (different : id ≠ other) (mails : List StoredMail) :
    keptUid (MailStore.without other mails) id = keptUid mails id := by
  rw [keptUid, existingMail, MailStore.without, List.filter_filter, keptUid, existingMail]
  congr 2
  refine List.filter_congr fun stored _ => ?_
  by_cases same : stored.elementId = some id <;> simp [same, different]

/-- Changes that do not forget a mail keep its UID. -/
theorem keptUid_foldl_onMails {changes : List MailChange} {id : String} (kept : .forget id ∉ changes)
    (mails : List StoredMail) : keptUid (changes.foldl MailChange.onMails mails) id = keptUid mails id := by
  refine List.foldlRecOn (motive := fun after : List StoredMail => keptUid after id = keptUid mails id) _ _ rfl ?_
  intro after same change mem
  cases change with
  | forget other =>
    refine (keptUid_without ?_ after).trans same
    rintro rfl
    exact kept mem
  | refresh other mail identified =>
    refine (keptUid_congr (MailStore.map_modifyFirst _ fun stored isCopy => ?_) id).trans same
    exact Prod.ext (identified.trans isCopy.symm) rfl

/-- A sync of the settled folder keeps the UIDs of its mails. -/
theorem keptUid_of_entries {mails : List Mail} (distinct : DistinctIds mails) {uidOf : Mail → Nat}
    {existing : List StoredMail} (same : (existing.map fun stored => (stored.mail, stored.uid)) =
      mails.map fun mail => (mail, uidOf mail)) {mail : Mail} (mem : mail ∈ mails) {id : String}
    (identified : mail.elementId = some id) : keptUid existing id = some (uidOf mail) := by
  have shown : (mail, uidOf mail) ∈ existing.map fun stored => (stored.mail, stored.uid) := by
    rw [same]
    exact List.mem_map.mpr ⟨mail, mem, rfl⟩
  obtain ⟨stored, inFolder, equal⟩ := List.mem_map.mp shown
  have isCopy : stored.elementId = some id := (congrArg (·.1.elementId) equal).trans identified
  cases found : existingMail existing id with
  | none => exact absurd isCopy (existingMail_eq_none_iff.mp found stored inFolder)
  | some copy =>
    obtain ⟨copyMember, copyId⟩ := existingMail_eq_some_imp found
    have copyShown : (copy.mail, copy.uid) ∈ mails.map fun mail => (mail, uidOf mail) := by
      rw [← same]
      exact List.mem_map.mpr ⟨copy, copyMember, rfl⟩
    obtain ⟨other, otherMember, otherEqual⟩ := List.mem_map.mp copyShown
    have sameId : other.elementId = mail.elementId := by
      rw [identified, ← copyId]
      exact congrArg (·.1.elementId) otherEqual
    obtain rfl : other = mail := List.inj_on_of_nodup_map distinct.2 otherMember mem sameId
    rw [keptUid, found]
    exact congrArg some (congrArg Prod.snd otherEqual).symm

/-- Of the listed mails the state differs from a settled one in their versions at
most, in memory and in their rows. -/
structure Restorable (env : Env) (folders : List FolderInfo) (order : List String)
    (settled world : World) : Prop where
  stamped : ∀ target, Target env folders order target → ∀ id ∈ listedIds target,
    keptUid (world.store.getFolder target.1.id) id = keptUid (settled.store.getFolder target.1.id) id
  rows : ∀ target, Target env folders order target → ∀ mail ∈ target.2, ∀ id,
    mail.elementId = some id → ∃ row, world.localStore.mails.find? id = some row ∧
      row.folderId = target.1.id ∧
      settled.localStore.mails.find? id = some (listedColumns env target.1 mail row)

theorem Restorable.congr {settled left right : World} (same : SameStores left right)
    (restorable : Restorable env folders order settled right) : Restorable env folders order settled left :=
  ⟨by simpa only [same.folders] using restorable.stamped, by simpa only [same.rows] using restorable.rows⟩

/-- The folder and the rows of its mails are as in the settled state. -/
structure Restored (target : FolderInfo × List Mail) (settled world : World) : Prop where
  folder : entries world target.1.id = entries settled target.1.id
  rows : ∀ id ∈ listedIds target, world.localStore.mails.find? id = settled.localStore.mails.find? id

/-- A sync of a settled folder takes the folder and the rows of its mails back to
what they were. -/
theorem restored_fallbackSync (reliable : Reliable env) (mem : entriesListId ∈ order)
    (listed : resynced env folders entriesListId = some target) (isSettled : Settled env target settled)
    (restorable : Restorable env folders order settled world) :
    Restored target settled (fallbackSync env folders world entriesListId) := by
  have isTarget : Target env folders order target := ⟨entriesListId, mem, listed⟩
  have distinct : DistinctIds target.2 := reliable.lists 0 target.1 target.2 (resynced_eq_some_imp listed).2
  obtain ⟨mails, listedRows, _⟩ := fallbackSync_of_some reliable listed world
  refine ⟨?_, fun id isListed => ?_⟩
  · obtain ⟨uidOf, same⟩ := isSettled.folder
    rw [same, entries, mails, if_pos rfl, listedMails, List.map_map]
    refine List.map_congr_left fun mail inListing => ?_
    obtain ⟨id, identified⟩ := Option.isSome_iff_exists.mp (distinct.1 mail inListing)
    have stamped := (restorable.stamped target isTarget id (List.mem_filterMap.mpr ⟨mail, inListing, identified⟩)).trans
      (keptUid_of_entries distinct same inListing identified)
    rw [keptUid] at stamped
    simp [syncedMail_mail, syncedMail_uid, syncedUid, identified, stamped]
  · obtain ⟨mail, inListing, identified⟩ := List.mem_filterMap.mp isListed
    obtain ⟨row, found, _, settledRow⟩ := restorable.rows target isTarget mail inListing id identified
    obtain ⟨written, writtenFound, _, overwrites⟩ := listedRows mail inListing id identified
    rw [writtenFound, settledRow, overwrites row found]

theorem Restorable.fallbackSync (reliable : Reliable env) (compatible : Compatible env folders order)
    (mem : entriesListId ∈ order)
    (isSettled : ∀ target, Target env folders order target → Settled env target settled)
    (restorable : Restorable env folders order settled world) :
    Restorable env folders order settled (Events.fallbackSync env folders world entriesListId) := by
  cases listed : resynced env folders entriesListId with
  | none =>
    exact restorable.congr (fallbackSync_of_none reliable listed world)
  | some synced =>
    have isTarget : Target env folders order synced := ⟨entriesListId, mem, listed⟩
    have restored := restored_fallbackSync reliable mem listed (isSettled synced isTarget) restorable
    obtain ⟨mails, _, _⟩ := fallbackSync_of_some reliable listed world
    refine ⟨fun target otherTarget id isListed => ?_, fun target otherTarget mail inListing id identified => ?_⟩
    · rcases compatible target synced otherTarget isTarget with rfl | apart
      · have sameStamps := congrArg (List.map fun entry => (entry.1.elementId, entry.2)) restored.folder
        simp only [entries, List.map_map] at sameStamps
        exact keptUid_congr sameStamps id
      · rw [mails, if_neg apart.folders]
        exact restorable.stamped target otherTarget id isListed
    · obtain ⟨settledRow, settledFound, columns⟩ :=
        (isSettled target otherTarget).rows mail inListing id identified
      have isListed : id ∈ listedIds target :=
        List.mem_filterMap.mpr ⟨mail, inListing, identified⟩
      rcases compatible target synced otherTarget isTarget with rfl | apart
      · refine ⟨settledRow, ?_, folderId_of_listedColumns columns, ?_⟩
        · rw [restored.rows id isListed, settledFound]
        · rw [settledFound, columns]
      · obtain ⟨row, found, inFolder, restores⟩ :=
          restorable.rows target otherTarget mail inListing id identified
        refine ⟨row, ?_, inFolder, restores⟩
        rw [fallbackSync_keeps_row reliable listed (apart.mails id isListed), found]
        intro old oldFound
        cases found.symm.trans oldFound
        rw [inFolder]
        exact apart.folders

/-- After the syncs of a batch, the synced folders are as in the settled state. -/
theorem restored_fallbacks (reliable : Reliable env) (compatible : Compatible env folders order)
    (isSettled : ∀ target, Target env folders order target → Settled env target settled)
    (restorable : Restorable env folders order settled world)
    (isTarget : Target env folders order target) :
    Restored target settled (order.foldl (Events.fallbackSync env folders) world) := by
  obtain ⟨entriesListId, mem, listed⟩ := isTarget
  refine foldl_establishes (fun entriesListId (after : World) => ∀ target,
    resynced env folders entriesListId = some target → Restored target settled after)
    (Restorable env folders order settled)
    (fun after entriesListId mem restorable =>
      restorable.fallbackSync reliable compatible mem isSettled)
    (fun after entriesListId mem restorable target listed =>
      restored_fallbackSync reliable mem listed (isSettled target ⟨entriesListId, mem, listed⟩) restorable)
    ?_ restorable entriesListId mem target listed
  intro after entriesListId mem other otherMember restorable restored target listed
  cases otherListed : resynced env folders other with
  | none =>
    have same := fallbackSync_of_none reliable otherListed after
    refine ⟨?_, fun id isListed => ?_⟩
    · rw [entries, same.folders]
      exact (restored target listed).folder
    · rw [same.rows]
      exact (restored target listed).rows id isListed
  | some otherTarget =>
    have isOther : Target env folders order otherTarget := ⟨other, otherMember, otherListed⟩
    rcases compatible target otherTarget ⟨entriesListId, mem, listed⟩ isOther with rfl | apart
    · exact restored_fallbackSync reliable otherMember otherListed
        (isSettled target isOther) restorable
    · obtain ⟨mails, _, _⟩ := fallbackSync_of_some reliable otherListed after
      refine ⟨?_, fun id isListed => ?_⟩
      · rw [entries, mails, if_neg apart.folders]
        exact (restored target listed).folder
      · have rows := (restored target listed).rows id isListed
        rw [fallbackSync_keeps_row reliable otherListed (apart.mails id isListed), rows]
        intro row found inFolder
        exact apart.mails id isListed ((isSettled otherTarget isOther).pruned id row (rows ▸ found) inFolder)

end Fallbacks

end TutaBridge.Events
