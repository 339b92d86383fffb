import TutaBridge.Runs.FullSync
import TutaBridge.Std.Guarded

/-!
# Launch after launch

At a launch the bridge opens its store, drops event-bus cursors the server can no
longer catch up from, and lets the syncer decide on a full sync from two things on
disk: the cursors and the marker of a completed full sync. Batches applied later
store cursors. The marker is written by a full sync without failures and is never
taken back, so a failed one that follows is forgotten once a cursor is stored.
-/

namespace TutaBridge.Runs

open TutaBridge.Std Tuta Store Bridge Sync
open Events

/-! ## A launch -/

/-- `ENTITY_EVENT_BATCH_EXPIRE` in milliseconds: 44 days. -/
def entityEventBatchExpireMs : Int := 44 * 24 * 60 * 60 * 1000

/-- `event_bus_state_min_updated_at_ms`. -/
def eventBusStateMinUpdatedAtMs (store : LocalStore) : Option Nat :=
  (store.eventBusState.rows.map EventBusState.updatedAtMs).min?

/-- The out-of-sync check of `start`: cursors past the server's replay window are
wiped. -/
def checkOutOfSync (env : Env) (world : World) : World :=
  let oldest := world.call env fun store => (eventBusStateMinUpdatedAtMs store, store)
  match oldest.1 with
  | .ok (some minMs) =>
    if (env.now world.tick : Int) - minMs > entityEventBatchExpireMs then
      oldest.2.write env (·.clearEventBusState)
    else oldest.2
  | _ => oldest.2

/-- The catch-up state of the event bus, from the stored cursors. -/
def hydrateBatchIds (env : Env) (world : World) : World :=
  let loaded := world.call env fun store => (store.loadEventBusState, store)
  match loaded.1 with
  | .ok ids => { loaded.2 with lastBatchIds := ids }
  | .error _ => loaded.2

/-- A launch of a build with the given schema version, up to the spawning of its
tasks. Nothing in memory outlives the process. -/
def openBridge (env : Env) (version : String) (world : World) : World :=
  hydrateBatchIds env (checkOutOfSync env
    { store := MailStore.new
      localStore := world.localStore.open version
      lastBatchIds := .empty
      tick := world.tick })

/-- `run_syncer` up to its decision: the folder list, none when it cannot be
loaded, and every folder filled from the cache. -/
def loadFolders (env : Env) (world : World) : List FolderInfo × World :=
  let answer := retry env.backend.listFolders maxRetries world
  let folders := match answer.1 with
    | .ok folders => folders
    | .error _ => []
  (folders, folders.foldl (fun world folder => (loadCachedFolder env folder world).2)
    (answer.2.mapStore (·.setFolderList folders)))

/-- The folder list of a launch and the state its decision is made in. -/
def beforeDecision (env : Env) (version : String) (world : World) : List FolderInfo × World :=
  loadFolders env (openBridge env version world)

/-- `do_full_sync` of a launch. -/
def runsFullSync (env : Env) (version : String) (world : World) : Bool :=
  let start := beforeDecision env version world
  (fullSyncDue env start.1 start.2).1

/-- A launch up to the end of the syncer's startup. -/
def launch (env : Env) (version : String) (shutdown : Nat → Bool) (world : World) : World :=
  let start := beforeDecision env version world
  let due := fullSyncDue env start.1 start.2
  if due.1 then fullSync env shutdown start.1 due.2 else due.2

/-- Some `sync_folder` of the loop returns an error. -/
def someSyncFails (env : Env) (shutdown : Nat → Bool) : List FolderInfo → World → Bool
  | [], _ => false
  | folder :: rest, world =>
    if shutdown world.tick then false
    else
      let synced := syncFolder env folder world
      !synced.1.isOk || someSyncFails env shutdown rest synced.2

/-- The launch runs a full sync and a folder of it fails. -/
def failsFullSync (env : Env) (version : String) (shutdown : Nat → Bool) (world : World) : Bool :=
  let start := beforeDecision env version world
  let due := fullSyncDue env start.1 start.2
  due.1 && someSyncFails env shutdown start.1 due.2

/-- What happens to the bridge over its life: a launch, or a message of the event
bus that the handler processes. -/
inductive BridgeEvent where
  | launch (version : String) (shutdown : Nat → Bool)
  | message (msg : EventBusMessage)

def bridgeStep (env : Env) (world : World) : BridgeEvent → World
  | .launch version shutdown => launch env version shutdown world
  | .message msg => process env world msg

/-- A launch that gets no folder list; a message is no launch. -/
def WithoutFolders (env : Env) (world : World) : BridgeEvent → Prop
  | .launch version _ => (beforeDecision env version world).1 = []
  | .message _ => True

/-! ## What keeps the marker -/

section Marker

variable {env : Env}

/-- What `store_meta` has on disk. -/
def metaOf (world : World) : Dict String String := world.localStore.storeMeta

theorem metaOf_call {α : Type} {effect : LocalStore → α × LocalStore}
    (does : ∀ store, (effect store).2.storeMeta = store.storeMeta) (world : World) :
    metaOf (world.call env effect).2 = metaOf world :=
  World.call_localStore_rel (R := fun before after => after.storeMeta = before.storeMeta)
    (fun _ => rfl) does world

theorem metaOf_write {effect : LocalStore → LocalStore}
    (does : ∀ store, (effect store).storeMeta = store.storeMeta) (world : World) :
    metaOf (world.write env effect) = metaOf world :=
  metaOf_call does world

theorem metaOf_writeAll {effects : List (LocalStore → LocalStore)}
    (does : ∀ effect ∈ effects, ∀ store, (effect store).storeMeta = store.storeMeta) (world : World) :
    metaOf (world.writeAll env effects) = metaOf world := by
  induction effects generalizing world with
  | nil => rfl
  | cons effect rest ih =>
    have first : metaOf (world.call env fun store => ((), effect store)).2 = metaOf world :=
      metaOf_call (does effect List.mem_cons_self) world
    unfold World.writeAll
    dsimp only
    split
    · exact first
    · rw [ih fun effect mem => does effect (List.mem_cons_of_mem _ mem),
        first]

theorem metaOf_deleteMail (elementId : String) (world : World) :
    metaOf (world.deleteMail env elementId) = metaOf world := by
  apply metaOf_writeAll
  simp only [List.forall_mem_cons]
  exact ⟨fun _ => rfl, fun _ => rfl, fun _ => rfl, by simp⟩

theorem metaOf_syncFolder (folder : FolderInfo) (world : World) :
    metaOf (syncFolder env folder world).2 = metaOf world := by
  cases listed : (listFolder env folder world).1 with
  | error message => exact congrArg LocalStore.storeMeta (syncFolder_of_error listed).2
  | ok newMails =>
    exact syncFolder_localStore_rel (R := fun before after => after.storeMeta = before.storeMeta)
      (fun _ => rfl) (fun early late => late.trans early) listed (fun _ _ => rfl)
      (fun _ _ => rfl) (fun _ => rfl) (fun _ _ _ => ⟨rfl, rfl⟩)

theorem metaOf_assignUidAndUpsert (target : FolderInfo) (mailEid : String) (stored : StoredMail) (world : World) :
    metaOf (assignUidAndUpsert env target mailEid stored world) = metaOf world := by
  have allocated : metaOf (world.call env (LocalStore.allocateFolderUids target.id [mailEid])).2 =
      metaOf world := metaOf_call (fun _ => rfl) world
  have upserted : ∀ metadata (world : World),
      metaOf (world.write env (·.upsertMailMetadata metadata)) = metaOf world :=
    fun metadata => metaOf_write fun _ => rfl
  exact (upserted _ _).trans allocated

theorem metaOf_applyInlineCreate (target : FolderInfo) (mailEid : String) (pending : PendingMail) (world : World) :
    metaOf (applyInlineCreate env target mailEid pending world) = metaOf world := by
  unfold applyInlineCreate
  dsimp only
  rw [metaOf_assignUidAndUpsert]
  split
  · rfl
  · apply metaOf_writeAll
    simp only [List.forall_mem_cons]
    exact ⟨fun _ => rfl, fun _ => rfl, by simp⟩

theorem metaOf_create (folders : List FolderInfo) (run : BatchRun) (ev : EntityUpdateEvent) :
    metaOf (applyMailSetEntryCreate env folders run ev).world = metaOf run.world := by
  have resolved := congrArg LocalStore.storeMeta (resolveMailSetEntry_stores env ev run.world).2
  have outcome := createOutcome env folders run ev
  generalize applyMailSetEntryCreate env folders run ev = after at outcome ⊢
  cases outcome with
  | unplaced => rfl
  | cached => exact metaOf_assignUidAndUpsert _ _ _ _
  | inlined => exact metaOf_applyInlineCreate _ _ _ _
  | unresolved | gone | failed => exact resolved
  | loaded => exact (metaOf_assignUidAndUpsert _ _ _ _).trans resolved

theorem metaOf_delete (folders : List FolderInfo) (world : World) (ev : EntityUpdateEvent) :
    metaOf (applyMailSetEntryDelete env folders world ev) = metaOf world := by
  rcases deleteOutcome env folders world ev with
    same | ⟨_, _, _, _, _, ⟨_, removed⟩ | ⟨_, forgotten⟩⟩
  · rw [same]
  · rw [removed]
    rfl
  · rw [forgotten]
    exact metaOf_deleteMail _ _

theorem metaOf_mailEvent (world : World) (ev : EntityUpdateEvent) :
    metaOf (applyMailEvent env world ev) = metaOf world := by
  rcases mailEventOutcome env world ev with same | ⟨start, _, disk, forgotten⟩ | ⟨mail, _, refreshed⟩
  · rw [same]
  · rw [forgotten]
    exact (metaOf_deleteMail _ _).trans (congrArg LocalStore.storeMeta disk)
  · rw [refreshed]
    have resolved := congrArg LocalStore.storeMeta (resolveMail_stores env ev world).2
    refine (metaOf_write ?_ _).trans resolved
    exact fun _ => rfl

theorem metaOf_dropFolder (world : World) (folderId : String) :
    metaOf (dropFolder env world folderId) = metaOf world := by
  have dropped : metaOf (world.call env (LocalStore.deleteFolderMails folderId)).2 = metaOf world :=
    metaOf_call (fun _ => rfl) world
  unfold dropFolder
  dsimp only
  split
  · exact dropped
  · rw [foldl_keeps metaOf]
    · exact dropped
    · intro world id
      apply metaOf_write
      exact fun _ => rfl

theorem metaOf_beginBatch (bucketed : Bucketed) (world : World) :
    metaOf (beginBatch env bucketed world).world = metaOf world := by
  have predecrypted : ∀ world, metaOf (predecryptMailCreates env bucketed.mailCreates world).2 =
      metaOf world := by
    intro world
    refine foldl_keeps (fun state : Dict String PendingMail × World => metaOf state.2)
      (fun state ev => ?_) _ _
    unfold predecryptMailCreate
    split
    · rfl
    · dsimp only
      split
      · split
        · rfl
        · split <;> rfl
      · rfl
  have refreshed : metaOf (refreshFolderList env world) = metaOf world := by
    unfold refreshFolderList
    dsimp only
    split
    · rfl
    · exact foldl_keeps metaOf (fun world id => metaOf_dropFolder world id) _ _
  unfold beginBatch
  dsimp only
  rw [predecrypted]
  split
  · exact refreshed
  · rfl

theorem metaOf_fallbackSync (folders : List FolderInfo) (world : World) (entriesListId : String) :
    metaOf (fallbackSync env folders world entriesListId) = metaOf world := by
  unfold fallbackSync
  split
  · rfl
  · exact metaOf_syncFolder _ _

/-- Applying events leaves `store_meta` alone. -/
theorem metaOf_process (world : World) (msg : EventBusMessage) : metaOf (process env world msg) = metaOf world := by
  cases msg with
  | entityUpdate batch =>
    have created : metaOf (applyCreates env batch world).world = metaOf world :=
      (foldl_keeps (fun run => metaOf run.world)
        (fun run ev => metaOf_create _ run ev) _ _).trans (metaOf_beginBatch _ _)
    have updated : metaOf (applyDeletes env batch world) = metaOf world :=
      (foldl_keeps metaOf metaOf_mailEvent _ _).trans
        ((foldl_keeps metaOf (fun world ev => metaOf_delete _ world ev) _ _).trans created)
    have synced : metaOf (applyBatch env batch world) = metaOf world :=
      (foldl_keeps metaOf (fun world id => metaOf_fallbackSync _ world id) _ _).trans updated
    refine (metaOf_write ?_ _).trans synced
    exact fun _ => rfl
  | _ => rfl

end Marker

/-! ## The decision -/

section Decision

variable {env : Env}

/-- The marker on disk. -/
def markerOf (world : World) : Option String := world.localStore.getMeta fullMetadataMarker

theorem markerOf_of_metaOf {before after : World} (same : metaOf after = metaOf before) :
    markerOf after = markerOf before := by
  unfold markerOf LocalStore.getMeta
  exact congrArg (Dict.get? · fullMetadataMarker) same

/-- Filling a folder from the cache at most marks rows. -/
theorem loadCachedFolder_localStore_rel {R : LocalStore → LocalStore → Prop} (refl : ∀ store, R store store)
    (trans : ∀ {first second third}, R first second → R second third → R first third)
    (marks : ∀ id store, R store (store.markHasDetails id)) (folder : FolderInfo) (world : World) :
    R world.localStore (loadCachedFolder env folder world).2.localStore := by
  have heals : ∀ row (world : World), R world.localStore (healHasDetails env row world).localStore := by
    intro row world
    unfold healHasDetails
    split
    · exact World.call_localStore_rel refl (marks row.elementId) world
    · exact refl _
  have rows : ∀ rows (world : World), R world.localStore (readRows env rows world).2.localStore := by
    intro rows
    induction rows with
    | nil => exact fun world => refl _
    | cons row rest ih =>
      intro world
      unfold readRows
      split
      · exact refl _
      · exact trans (heals row world) (ih _)
  have loads : R world.localStore
      (world.call env fun store => (store.loadFolderMetadata folder.id, store)).2.localStore :=
    World.call_localStore_rel refl refl world
  have reads : R world.localStore (readCachedFolder env folder world).2.localStore := by
    unfold readCachedFolder
    dsimp only
    split
    · exact loads
    · split <;> exact trans loads (rows _ _)
  unfold loadCachedFolder
  dsimp only
  split <;> exact reads

/-- Up to its decision a launch keeps the marker, and after the out-of-sync check
the cursors. -/
theorem beforeDecision_facts (env : Env) (version : String) (world : World) :
    markerOf (beforeDecision env version world).2 = markerOf world ∧
      (beforeDecision env version world).2.localStore.eventBusState =
        (openBridge env version world).localStore.eventBusState := by
  let Same (before after : LocalStore) : Prop :=
    after.storeMeta = before.storeMeta ∧ after.eventBusState = before.eventBusState
  have loaded : ∀ world : World, Same world.localStore (loadFolders env world).2.localStore := by
    intro world
    have loop : ∀ (folders : List FolderInfo) (world : World), Same world.localStore
        (folders.foldl (fun world folder => (loadCachedFolder env folder world).2) world).localStore := by
      intro folders
      induction folders with
      | nil => exact fun world => ⟨rfl, rfl⟩
      | cons folder rest ih =>
        intro world
        have now : Same world.localStore (loadCachedFolder env folder world).2.localStore :=
          loadCachedFolder_localStore_rel (R := Same) (fun _ => ⟨rfl, rfl⟩)
            (fun early late => ⟨late.1.trans early.1, late.2.trans early.2⟩)
            (fun _ _ => ⟨rfl, rfl⟩) folder world
        have later := ih (loadCachedFolder env folder world).2
        exact ⟨later.1.trans now.1, later.2.trans now.2⟩
    have asked := (retry_stores env.backend.listFolders maxRetries world).2
    have filled := loop (loadFolders env world).1 ((retry env.backend.listFolders maxRetries
      world).2.mapStore (·.setFolderList (loadFolders env world).1))
    rw [World.mapStore_localStore, asked] at filled
    exact filled
  refine ⟨?_, (loaded _).2⟩
  have hydrated : ∀ world, metaOf (hydrateBatchIds env world) = metaOf world := by
    intro world
    have read : metaOf (world.call env fun store => (store.loadEventBusState, store)).2 =
        metaOf world := metaOf_call (fun _ => rfl) world
    unfold hydrateBatchIds
    dsimp only
    split <;> exact read
  have checked : ∀ world, metaOf (checkOutOfSync env world) = metaOf world := by
    intro world
    have read : metaOf (world.call env fun store => (eventBusStateMinUpdatedAtMs store, store)).2 =
        metaOf world := metaOf_call (fun _ => rfl) world
    have wiped : ∀ world : World, metaOf (world.write env (·.clearEventBusState)) = metaOf world :=
      metaOf_write fun _ => rfl
    unfold checkOutOfSync
    dsimp only
    split
    · split
      · exact (wiped _).trans read
      · exact read
    · exact read
  have opened : markerOf ⟨MailStore.new, world.localStore.open version, .empty, world.tick⟩ =
      markerOf world := by
    unfold markerOf LocalStore.getMeta LocalStore.open
    have different : fullMetadataMarker ≠ "schema_version" := by decide
    split <;> simp [different]
  exact (markerOf_of_metaOf ((loaded _).1.trans ((hydrated _).trans (checked _)))).trans opened

theorem loadEventBusState_isEmpty (store : LocalStore) :
    store.loadEventBusState.rows.isEmpty = store.eventBusState.rows.isEmpty := by
  have grows : ∀ (rows : List EventBusState) (out : Dict String String), out.rows.isEmpty = false →
      (rows.foldl (fun out row => out.set row.groupId row.lastBatchId) out).rows.isEmpty = false := by
    intro rows
    induction rows with
    | nil => exact fun out filled => filled
    | cons row rest ih =>
      intro out _
      apply ih
      have found : (out.set row.groupId row.lastBatchId).find? row.groupId =
          some (row.groupId, row.lastBatchId) := by
        rw [Dict.find?_eq_get?, Dict.get?_set, if_pos rfl]
        rfl
      have mem := Table.mem_of_find? found
      cases rows : (out.set row.groupId row.lastBatchId).rows with
      | nil =>
        rw [rows] at mem
        cases mem
      | cons => rfl
  unfold LocalStore.loadEventBusState
  cases stored : store.eventBusState.rows with
  | nil => rfl
  | cons row rest => exact grows rest _ rfl

/-- The syncer decides for a full sync when it has folders and finds no cursor or
no marker; a read that fails finds nothing. -/
theorem fullSyncDue_iff (env : Env) (folders : List FolderInfo) (world : World) :
    (fullSyncDue env folders world).1 = true ↔
      folders ≠ [] ∧ (markerOf world = none ∨ world.localStore.eventBusState.rows = [] ∨
        env.diskFault world.tick ≠ none ∨ env.diskFault (world.tick + 1) ≠ none) := by
  have someFolder : (!folders.isEmpty) = true ↔ folders ≠ [] := by simp
  cases first : env.diskFault world.tick with
  | some error => simp [fullSyncDue, World.call, first]
  | none =>
    cases second : env.diskFault (world.tick + 1) with
    | some error => simp [fullSyncDue, World.call, first, second]
    | none =>
      simp only [fullSyncDue, World.call, first, second, loadEventBusState_isEmpty,
        Bool.and_eq_true, Bool.or_eq_true, someFolder, markerOf, ne_eq, not_true_eq_false,
        or_false, Bool.not_eq_true', Option.isSome_eq_false_iff, Option.isNone_iff_eq_none,
        List.isEmpty_iff]
      tauto

theorem metaOf_fullSyncDue (folders : List FolderInfo) (world : World) :
    metaOf (fullSyncDue env folders world).2 = metaOf world := by
  have first : ∀ world : World, metaOf (world.call env fun store =>
      (store.loadEventBusState, store)).2 = metaOf world := metaOf_call fun _ => rfl
  have second : ∀ world : World, metaOf (world.call env fun store =>
      (store.getMeta fullMetadataMarker, store)).2 = metaOf world := metaOf_call fun _ => rfl
  exact (second _).trans (first world)

theorem metaOf_fullSyncLoop (shutdown : Nat → Bool) (folders : List FolderInfo) (allOk : Bool) (world : World) :
    metaOf (fullSyncLoop env shutdown folders allOk world).2 = metaOf world := by
  induction folders generalizing allOk world with
  | nil => rfl
  | cons folder rest ih =>
    unfold fullSyncLoop
    dsimp only
    split
    · rfl
    · exact (ih _ _).trans (metaOf_syncFolder folder world)

/-- A loop in which a sync fails does not end with `all_ok`. -/
theorem fullSyncLoop_ne_of_fails {shutdown : Nat → Bool} {folders : List FolderInfo} {world : World}
    (fails : someSyncFails env shutdown folders world = true) (allOk : Bool) :
    (fullSyncLoop env shutdown folders allOk world).1 ≠ some true := by
  intro completed
  induction folders generalizing allOk world with
  | nil => cases fails
  | cons folder rest ih =>
    unfold someSyncFails at fails
    unfold fullSyncLoop at completed
    dsimp only at fails completed
    split at fails
    · cases fails
    next running =>
      rw [if_neg running] at completed
      rw [Bool.or_eq_true, Bool.not_eq_true'] at fails
      rcases fails with failed | later
      · have bothOk := (isOk_of_fullSyncLoop completed).1
        rw [failed, Bool.and_false] at bothOk
        cases bothOk
      · exact ih later _ completed

/-- A launch whose full sync fails leaves the marker as it was. -/
theorem markerOf_launch_of_fails {version : String} {shutdown : Nat → Bool} {world : World}
    (fails : failsFullSync env version shutdown world = true) :
    markerOf (launch env version shutdown world) = markerOf world := by
  unfold failsFullSync at fails
  dsimp only at fails
  rw [Bool.and_eq_true] at fails
  have incomplete := fullSyncLoop_ne_of_fails fails.2 true
  unfold launch
  dsimp only
  rw [if_pos fails.1]
  refine Eq.trans (markerOf_of_metaOf ?_) (beforeDecision_facts env version world).1
  unfold fullSync
  dsimp only
  split
  next completed => exact absurd completed incomplete
  next => exact (metaOf_fullSyncLoop _ _ _ _).trans (metaOf_fullSyncDue _ _)

/-- Neither a launch without folders nor a message changes the marker. -/
theorem markerOf_bridgeStep (world : World) (event : BridgeEvent) (without : WithoutFolders env world event) :
    markerOf (bridgeStep env world event) = markerOf world := by
  cases event with
  | message msg => exact markerOf_of_metaOf (metaOf_process world msg)
  | launch version shutdown =>
    have notDue : (fullSyncDue env (beforeDecision env version world).1
        (beforeDecision env version world).2).1 ≠ true :=
      fun due => ((fullSyncDue_iff _ _ _).mp due).1 without
    unfold bridgeStep launch
    dsimp only
    rw [if_neg notDue]
    exact (markerOf_of_metaOf (metaOf_fullSyncDue _ _)).trans (beforeDecision_facts env version world).1

end Decision

/-- A launch runs a full sync and some folder fails. Whatever messages are
processed afterwards, and whatever launches get no folder list, the next launch
that has folders runs the full sync again exactly when the marker was not set when
the failed one ran, or no cursor is stored when it starts its tasks, or one of its
two reads fails. -/
theorem failed_fullSync_retried_iff (env : Env) (world : World) (version : String)
    (shutdown : Nat → Bool) (fails : failsFullSync env version shutdown world = true)
    (between : List BridgeEvent)
    (idle : Guarded (bridgeStep env) (WithoutFolders env) (launch env version shutdown world) between)
    (nextVersion : String) :
    let next := between.foldl (bridgeStep env) (launch env version shutdown world)
    let start := beforeDecision env nextVersion next
    start.1 ≠ [] → (runsFullSync env nextVersion next = true ↔ markerOf world = none ∨
          (openBridge env nextVersion next).localStore.eventBusState.rows = [] ∨
          env.diskFault start.2.tick ≠ none ∨ env.diskFault (start.2.tick + 1) ≠ none) := by
  intro next start hasFolders
  obtain ⟨marker, cursors⟩ := beforeDecision_facts env nextVersion next
  have kept : markerOf next = markerOf world :=
    Guarded.foldl_invariant (fun state => markerOf state = markerOf world)
      (fun state event same without => (markerOf_bridgeStep state event without).trans same)
      (markerOf_launch_of_fails fails) idle
  have due := fullSyncDue_iff env start.1 start.2
  rw [marker, kept, cursors] at due
  exact due.trans ⟨fun both => both.2, fun condition => ⟨hasFolders, condition⟩⟩

/-! ## A failed sync after a completed one -/

/-- A bridge whose listings fail, 45 days after its first launch. -/
def staleEnv : Env :=
  { quietEnv (offlineBackend [sampleFolder "inbox" "entries"]) with
    now := fun _ => 45 * 24 * 60 * 60 * 1000 }

/-- A store with a cursor of the first day, and the marker or not. -/
def staleWorld (marked : Bool) : World :=
  let store := (LocalStore.blank.open schemaVersion).setEventBusBatchId "group" "b1" 0
  { store := MailStore.new
    localStore := if marked then store.setMeta fullMetadataMarker "1" else store
    lastBatchIds := .empty
    tick := 0 }

/-- A batch that stores a cursor. -/
def laterBatch : BridgeEvent := .message (.entityUpdate ⟨"b2", "group", []⟩)

/-- Without the marker the failed full sync is run again. -/
theorem failed_fullSync_retried_unmarked :
    let next := bridgeStep staleEnv (launch staleEnv schemaVersion (fun _ => false)
      (staleWorld false)) laterBatch
    failsFullSync staleEnv schemaVersion (fun _ => false) (staleWorld false) = true ∧
      runsFullSync staleEnv schemaVersion next = true := by
  have fails : failsFullSync staleEnv schemaVersion (fun _ => false) (staleWorld false) = true := by
    decide +kernel
  refine ⟨fails, ?_⟩
  exact (failed_fullSync_retried_iff staleEnv (staleWorld false) schemaVersion (fun _ => false) fails
    [laterBatch] ⟨trivial, trivial⟩ schemaVersion (by decide +kernel)).mpr (.inl (by decide +kernel))

/-- The cursors are wiped at a launch, its full sync fails, a batch stores a cursor,
and the next launch finds it beside the marker of an earlier full sync: the full
sync is not run again. -/
theorem failed_fullSync_forgotten :
    let next := bridgeStep staleEnv (launch staleEnv schemaVersion (fun _ => false)
      (staleWorld true)) laterBatch
    (openBridge staleEnv schemaVersion (staleWorld true)).localStore.eventBusState.rows = [] ∧
      failsFullSync staleEnv schemaVersion (fun _ => false) (staleWorld true) = true ∧
      (beforeDecision staleEnv schemaVersion next).1 ≠ [] ∧
      runsFullSync staleEnv schemaVersion next = false := by
  decide +kernel

end TutaBridge.Runs
