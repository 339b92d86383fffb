import TutaBridge.Events.HandlerFacts
import TutaBridge.Sync.Backfill

/-!
# The operations on the stores

What the event handler and the syncer do to both stores is a sequence of a few
operations, whatever the messages are. All but one of them leave the bodies alone:
an inlined create brings its own.
-/

namespace TutaBridge.Runs

open TutaBridge.Std Tuta Store Bridge Sync
open Events

/-- What changes the stores besides the prefetch and the fetches. -/
inductive StoreOp where
  /-- A Mail UPDATE with the mail's new value. -/
  | update (instanceId : String) (mail : Mail)
  | sync (folder : FolderInfo)
  /-- A mail that is cloned from a folder that has it. -/
  | clone (target : FolderInfo) (mailEid : String) (stored : StoredMail)
  /-- An inlined Mail CREATE, placed in a folder. -/
  | create (target : FolderInfo) (mailEid : String) (pending : PendingMail)
  /-- A mail that was loaded for its entry. -/
  | load (target : FolderInfo) (mailEid : String) (mail : Mail)
  | entryDelete (folders : List FolderInfo) (ev : EntityUpdateEvent)
  | mailDelete (elementId : String)
  | refreshFolders
  | loadCached (folder : FolderInfo)
  | backfill (folders : List FolderInfo)
  | advance (batch : EntityUpdateBatch)
  /-- Requests that change nothing. -/
  | wait (requests : Nat)

namespace StoreOp

def apply (env : Env) (world : World) : StoreOp → World
  | .update instanceId mail => refreshMail env instanceId mail world
  | .sync folder => (syncFolder env folder world).2
  | .clone target mailEid stored => assignUidAndUpsert env target mailEid stored world
  | .create target mailEid pending => applyInlineCreate env target mailEid pending world
  | .load target mailEid mail => assignUidAndUpsert env target mailEid (newlyStored mail) world
  | .entryDelete folders ev => applyMailSetEntryDelete env folders world ev
  | .mailDelete elementId => forgetMail env elementId world
  | .refreshFolders => refreshFolderList env world
  | .loadCached folder => (loadCachedFolder env folder world).2
  | .backfill folders => Sync.backfill env folders world
  | .advance batch => advanceCursor env batch world
  | .wait requests => { world with tick := world.tick + requests }

/-- The values an operation applies, each with the mail it is applied for. -/
def values (env : Env) (world : World) : StoreOp → List (String × Mail)
  | .update _ mail => mail.elementId.toList.map fun id => (id, mail)
  | .sync folder =>
    match (listFolder env folder world).1 with
    | .error _ => []
    | .ok newMails => newMails.filterMap fun mail => mail.elementId.map fun id => (id, mail)
  | .create _ mailEid pending => [(mailEid, pending.mail)]
  | .load _ mailEid mail => [(mailEid, mail)]
  | _ => []

end StoreOp

/-! ## What the handler does -/

/-- The payloads of the event decrypt to the mail and to the details that came with it. -/
structure BundledIn (env : Env) (ev : EntityUpdateEvent) (pending : PendingMail) : Prop where
  mail : ∃ tick json, ev.inlined = some json ∧
    env.backend.decryptInlineMail tick json = .ok (some pending.mail)
  details : ∀ details ∈ pending.details, ∃ tick json, ev.blobInstance = some json ∧
    env.backend.decryptInlineMailDetailsBlob tick json = .ok (some details)

/-- What was inlined for the mail comes from one event of the mail. -/
def Bundled (env : Env) (mailEid : String) (pending : PendingMail) : Prop :=
  ∃ ev : EntityUpdateEvent, ev.instanceId = mailEid ∧ BundledIn env ev pending

/-- An inlined create places a mail that the server inlined for it. -/
def StoreOp.Bundled (env : Env) : StoreOp → Prop
  | .create _ mailEid pending => Runs.Bundled env mailEid pending
  | _ => True

/-- Operations of the handler lead from the first world to the second. -/
def Handles (env : Env) (before after : World) : Prop :=
  ∃ ops : List StoreOp, (∀ op ∈ ops, op.Bundled env) ∧ ops.foldl (StoreOp.apply env) before = after

/-- Everything that waits for its folder entry was inlined for its mail. -/
def PendingBundled (env : Env) (pending : Dict String PendingMail) : Prop :=
  ∀ mailEid held, pending.get? mailEid = some held → Runs.Bundled env mailEid held

namespace Handles

variable {env : Env}

theorem refl (world : World) : Handles env world world :=
  ⟨[], fun _ mem => absurd mem List.not_mem_nil, rfl⟩

theorem trans {first second third : World} (early : Handles env first second)
    (late : Handles env second third) : Handles env first third := by
  obtain ⟨earlyOps, earlyBundled, rfl⟩ := early
  obtain ⟨lateOps, lateBundled, rfl⟩ := late
  refine ⟨earlyOps ++ lateOps, fun op mem => ?_, List.foldl_append⟩
  rcases List.mem_append.mp mem with isEarly | isLate
  · exact earlyBundled op isEarly
  · exact lateBundled op isLate

theorem single (op : StoreOp) (bundled : op.Bundled env) (world : World) :
    Handles env world (op.apply env world) := by
  refine ⟨[op], fun other mem => ?_, rfl⟩
  rw [List.mem_singleton.mp mem]
  exact bundled

/-- What each step of a loop does by operations, the loop does, along with what it keeps. -/
theorem foldl_keeping {σ α : Type} {step : σ → α → σ} (view : σ → World) (Kept : σ → Prop)
    (each : ∀ state item, Kept state → Handles env (view state) (view (step state item)) ∧ Kept (step state item))
    (items : List α) (state : σ) (kept : Kept state) :
    Handles env (view state) (view (items.foldl step state)) ∧ Kept (items.foldl step state) := by
  induction items generalizing state with
  | nil => exact ⟨refl (view state), kept⟩
  | cons head rest ih =>
    obtain ⟨first, stillKept⟩ := each state head kept
    obtain ⟨later, finallyKept⟩ := ih (step state head) stillKept
    exact ⟨first.trans later, finallyKept⟩

theorem foldl {σ α : Type} {step : σ → α → σ} (view : σ → World)
    (each : ∀ state item, Handles env (view state) (view (step state item))) (items : List α)
    (state : σ) : Handles env (view state) (view (items.foldl step state)) :=
  (foldl_keeping view (fun _ => True) (fun state item _ => ⟨each state item, trivial⟩) items state
    trivial).1

theorem loadUpdatedMail (ev : EntityUpdateEvent) (world : World) :
    Handles env world (Events.loadUpdatedMail env ev world).2 := by
  unfold Events.loadUpdatedMail
  dsimp only
  split <;> exact single (.wait 1) trivial world

theorem resolveMail (ev : EntityUpdateEvent) (world : World) :
    Handles env world (Events.resolveMail env ev world).2 := by
  unfold Events.resolveMail
  split
  · exact loadUpdatedMail ev world
  · dsimp only
    split
    · exact single (.wait 1) trivial world
    · exact (single (.wait 1) trivial world).trans (loadUpdatedMail ev _)

theorem mailEvent (world : World) (ev : EntityUpdateEvent) : Handles env world (applyMailEvent env world ev) := by
  unfold applyMailEvent
  split
  · exact single (.mailDelete ev.instanceId) trivial world
  · dsimp only
    split
    next mail _ =>
      exact (resolveMail ev world).trans (single (.update ev.instanceId mail) trivial _)
    · exact (resolveMail ev world).trans (single (.mailDelete ev.instanceId) trivial _)
  · exact refl world

theorem requested (ev : EntityUpdateEvent) (world : World) : Handles env world (resolveMailSetEntry env ev world).2 ∧
      Handles env world (Events.requested env ev world) := by
  have resolved : Handles env world (resolveMailSetEntry env ev world).2 := by
    unfold resolveMailSetEntry
    split
    · exact refl world
    · dsimp only
      split <;> exact single (.wait 1) trivial world
  exact ⟨resolved, resolved.trans (single (.wait 1) trivial _)⟩

/-- A create takes what waits for it, and leaves the rest as it is. -/
theorem entryCreate (folders : List FolderInfo) (run : BatchRun) (ev : EntityUpdateEvent)
    (bundled : PendingBundled env run.pending) :
    Handles env run.world (applyMailSetEntryCreate env folders run ev).world ∧
      PendingBundled env (applyMailSetEntryCreate env folders run ev).pending := by
  have outcome := createOutcome env folders run ev
  generalize applyMailSetEntryCreate env folders run ev = after at outcome ⊢
  cases outcome with
  | unplaced => exact ⟨refl _, bundled⟩
  | cached => exact ⟨single (.clone _ _ _) trivial _, bundled⟩
  | @inlined _ mailEid target pending _ _ _ held =>
    refine ⟨single (.create target mailEid pending) (bundled mailEid pending held) _, ?_⟩
    intro other found isHeld
    rw [Dict.get?_erase] at isHeld
    split at isHeld
    · cases isHeld
    · exact bundled other found isHeld
  | unresolved => exact ⟨(requested ev run.world).1, bundled⟩
  | loaded => exact ⟨(requested ev run.world).2.trans (single (.load _ _ _) trivial _), bundled⟩
  | gone => exact ⟨(requested ev run.world).2, bundled⟩
  | failed => exact ⟨(requested ev run.world).2, bundled⟩

theorem pendingBundled_set {pending : Dict String PendingMail} {mailEid : String}
    {held : PendingMail} (others : PendingBundled env pending)
    (inlined : Runs.Bundled env mailEid held) : PendingBundled env (pending.set mailEid held) := by
  intro other found isHeld
  rw [Dict.get?_set] at isHeld
  split at isHeld
  next same =>
    cases isHeld
    rw [same]
    exact inlined
  next => exact others other found isHeld

theorem predecryptMail (state : Dict String PendingMail × World) (ev : EntityUpdateEvent)
    (bundled : PendingBundled env state.1) : Handles env state.2 (predecryptMailCreate env state ev).2 ∧
      PendingBundled env (predecryptMailCreate env state ev).1 := by
  unfold predecryptMailCreate
  split
  · exact ⟨refl _, bundled⟩
  next json inlined =>
    dsimp only
    split
    next mail decrypted =>
      have isMail : ∃ tick json, ev.inlined = some json ∧
          env.backend.decryptInlineMail tick json = .ok (some mail) :=
        ⟨state.2.tick, json, inlined, decrypted⟩
      have bare : BundledIn env ev ⟨mail, none⟩ :=
        ⟨isMail, fun _ isDetails => absurd isDetails (Option.not_mem_none _)⟩
      split
      · exact ⟨single (.wait 1) trivial _, pendingBundled_set bundled ⟨ev, rfl, bare⟩⟩
      next blobJson hasBlob =>
        have asked := (@single env (.wait 1) trivial state.2).trans (single (.wait 1) trivial _)
        split
        next details answered =>
          refine ⟨asked, pendingBundled_set bundled ⟨ev, rfl, isMail, ?_⟩⟩
          rintro details rfl
          exact ⟨_, blobJson, hasBlob, answered⟩
        · exact ⟨asked, pendingBundled_set bundled ⟨ev, rfl, bare⟩⟩
    · exact ⟨single (.wait 1) trivial _, bundled⟩

theorem predecrypt (events : List EntityUpdateEvent) (world : World) :
    Handles env world (predecryptMailCreates env events world).2 ∧
      PendingBundled env (predecryptMailCreates env events world).1 := by
  refine foldl_keeping Prod.snd (fun state => PendingBundled env state.1) predecryptMail events
    ((.empty : Dict String PendingMail), world) fun mailEid held isHeld => ?_
  cases isHeld

theorem fallbackSync (folders : List FolderInfo) (world : World) (entriesListId : String) :
    Handles env world (Events.fallbackSync env folders world entriesListId) := by
  unfold Events.fallbackSync
  split
  · exact refl world
  · exact single (.sync _) trivial world

theorem applyBatch (batch : EntityUpdateBatch) (world : World) :
    Handles env world (Events.applyBatch env batch world) := by
  obtain ⟨refreshed, begun, bundled⟩ : ∃ refreshed, Handles env world refreshed ∧
      (Handles env refreshed (beginBatch env (bucketUpdates batch.updates) world).world ∧
        PendingBundled env (beginBatch env (bucketUpdates batch.updates) world).pending) := by
    refine ⟨_, ?_, predecrypt _ _⟩
    split
    · exact single .refreshFolders trivial world
    · exact refl world
  obtain ⟨created, _⟩ := foldl_keeping BatchRun.world (fun run => PendingBundled env run.pending)
    (fun run ev => entryCreate (batchFolders env batch world) run ev)
    (bucketUpdates batch.updates).mailSetEntryCreates _ bundled.2
  have deleted : Handles env world (applyDeletes env batch world) := by
    refine (begun.trans (bundled.1.trans created)).trans (Handles.trans ?_ (foldl id mailEvent _ _))
    exact foldl id (fun world ev => single (.entryDelete _ ev) trivial world) _ _
  exact deleted.trans (foldl id (fallbackSync _) _ _)

/-- The handler does what it does by these operations, and places only mails that were
inlined for their entries. -/
theorem process (world : World) (msg : EventBusMessage) : Handles env world (Events.process env world msg) := by
  unfold Events.process
  split
  next batch => exact (applyBatch batch world).trans (single (.advance batch) trivial _)
  · exact refl world

end Handles

/-! ## What the operations leave -/

/-- No body of the mail that was not there before. -/
structure Spares (elementId : String) (before after : World) : Prop where
  file : ∀ text, after.localStore.readEml elementId = some text →
    before.localStore.readEml elementId = some text
  cache : ∀ body, after.store.bodies.peek elementId = some body →
    before.store.bodies.peek elementId = some body

namespace Spares

variable {env : Env} {elementId : String}

theorem of_same {before after : World} (files : after.localStore.emls = before.localStore.emls)
    (bodies : after.store.bodies = before.store.bodies) : Spares elementId before after where
  file text := by
    rw [LocalStore.readEml, files]
    exact id
  cache body := by
    rw [bodies]
    exact id

theorem refl (world : World) : Spares elementId world world := of_same rfl rfl

theorem trans {first second third : World} (early : Spares elementId first second)
    (late : Spares elementId second third) : Spares elementId first third where
  file text found := early.file text (late.file text found)
  cache body found := early.cache body (late.cache body found)

theorem foldl {α : Type} {step : World → α → World}
    (each : ∀ world item, Spares elementId world (step world item)) (items : List α)
    (world : World) : Spares elementId world (items.foldl step world) := by
  induction items generalizing world with
  | nil => exact refl world
  | cons head rest ih =>
    exact (each world head).trans (ih (step world head))

/-- A disk call whose effect writes no body file. -/
theorem call {α : Type} {effect : LocalStore → α × LocalStore} (world : World)
    (file : ∀ store text, (effect store).2.readEml elementId = some text →
      store.readEml elementId = some text) :
    Spares elementId world (world.call env effect).2 where
  file text := @World.call_localStore_rel env
    (fun before after => after.readEml elementId = some text → before.readEml elementId = some text)
    (fun _ => id) _ _ (fun store => file store text) world
  cache body := by
    rw [World.call_store]
    exact id

theorem write {effect : LocalStore → LocalStore} (world : World)
    (file : ∀ store text, (effect store).readEml elementId = some text →
      store.readEml elementId = some text) :
    Spares elementId world (world.write env effect) := call world file

theorem writeAll {effects : List (LocalStore → LocalStore)} (world : World)
    (file : ∀ effect ∈ effects, ∀ store text, (effect store).readEml elementId = some text →
      store.readEml elementId = some text) :
    Spares elementId world (world.writeAll env effects) := by
  induction effects generalizing world with
  | nil => exact refl world
  | cons effect rest ih =>
    have first : Spares elementId world (world.call env fun store => ((), effect store)).2 :=
      call world (file effect List.mem_cons_self)
    unfold World.writeAll
    dsimp only
    split
    · exact first
    · exact first.trans (ih _ fun effect mem =>
        file effect (List.mem_cons_of_mem _ mem))

theorem readEml_deleteEml_imp {deleted text : String} (store : LocalStore)
    (found : (store.deleteEml deleted).readEml elementId = some text) : store.readEml elementId = some text := by
  simp only [LocalStore.readEml, LocalStore.deleteEml, Dict.get?_erase] at found
  split at found
  · cases found
  · exact found

theorem deleteMail (deleted : String) (world : World) : Spares elementId world (world.deleteMail env deleted) := by
  refine writeAll world fun effect mem => ?_
  simp only [List.mem_cons, List.not_mem_nil, or_false] at mem
  rcases mem with rfl | rfl | rfl
  · exact fun _ _ => id
  · exact fun store _ => readEml_deleteEml_imp store
  · exact fun _ _ => id

theorem dropFolder (world : World) (folderId : String) :
    Spares elementId world (Events.dropFolder env world folderId) := by
  have dropped : Spares elementId world
      (world.call env (LocalStore.deleteFolderMails folderId)).2 := call world fun _ _ => id
  unfold Events.dropFolder
  dsimp only
  split
  · exact dropped
  · exact dropped.trans (foldl (fun world id => write world fun store _ =>
      readEml_deleteEml_imp store) _ _)

theorem refreshFolderList (world : World) : Spares elementId world (Events.refreshFolderList env world) := by
  unfold Events.refreshFolderList
  dsimp only
  split
  · exact of_same rfl rfl
  · refine Spares.trans ?_ (foldl dropFolder _ _)
    exact of_same rfl (MailStore.bodies_pruneUnknownFolders _ _)

theorem syncFolder (folder : FolderInfo) (world : World) :
    Spares elementId world (Sync.syncFolder env folder world).2 := by
  cases listed : (listFolder env folder world).1 with
  | error message =>
    obtain ⟨store, disk⟩ := syncFolder_of_error listed
    exact of_same (by rw [disk]) (by rw [store])
  | ok newMails =>
    obtain ⟨newUids, store⟩ := exists_syncFolder_store listed
    refine ⟨fun text => ?_, fun body => ?_⟩
    · refine @syncFolder_localStore_rel _ _ _ env
        (fun before after => after.readEml elementId = some text →
          before.readEml elementId = some text) (fun _ => id)
        (fun early late found => early (late found)) listed (fun _ _ => id) (fun _ _ => id)
        (fun _ => id) fun id store _ => ⟨readEml_deleteEml_imp store, fun found => found⟩
    · rw [store]
      exact id

theorem assignUidAndUpsert (target : FolderInfo) (mailEid : String) (stored : StoredMail) (world : World) :
    Spares elementId world (Events.assignUidAndUpsert env target mailEid stored world) := by
  unfold Events.assignUidAndUpsert
  have allocated : Spares elementId world
      (world.call env (LocalStore.allocateFolderUids target.id [mailEid])).2 :=
    call world fun _ _ => id
  refine allocated.trans (Spares.trans (write _ ?_) (of_same rfl ?_))
  · exact fun _ _ => id
  · exact MailStore.bodies_upsertMailInFolder _ _ _

theorem entryDelete (folders : List FolderInfo) (world : World) (ev : EntityUpdateEvent) :
    Spares elementId world (applyMailSetEntryDelete env folders world ev) := by
  obtain same | ⟨_, mailEid, source, _, _, ⟨_, removed⟩ | ⟨_, deleted⟩⟩ :=
    deleteOutcome env folders world ev
  · rw [same]
    exact refl world
  · rw [removed]
    exact of_same rfl (MailStore.bodies_removeMailFromFolder _ _ _)
  · rw [deleted]
    refine Spares.trans ?_ (deleteMail mailEid _)
    exact of_same rfl (MailStore.bodies_removeMailFromFolder _ _ _)

theorem readRows (rows : List MailMetadata) (world : World) :
    Spares elementId world (Sync.readRows env rows world).2 := by
  induction rows generalizing world with
  | nil => exact refl world
  | cons row rest ih =>
    have healed : Spares elementId world (healHasDetails env row world) := by
      unfold healHasDetails
      split
      · exact write world fun _ _ => id
      · exact refl world
    unfold Sync.readRows
    split
    · exact refl world
    · exact healed.trans (ih _)

theorem loadCachedFolder (folder : FolderInfo) (world : World) :
    Spares elementId world (Sync.loadCachedFolder env folder world).2 := by
  have loaded : Spares elementId world (world.call env fun store =>
      (store.loadFolderMetadata folder.id, store)).2 := call world fun _ _ => id
  have read : Spares elementId world (readCachedFolder env folder world).2 := by
    unfold readCachedFolder
    dsimp only
    split
    · exact loaded
    · split <;> exact loaded.trans (readRows _ _)
  unfold Sync.loadCachedFolder
  dsimp only
  split
  · exact read
  · exact read.trans (of_same rfl rfl)

/-- No operation but an inlined create adds a body. -/
theorem apply {op : StoreOp} (notCreate : ∀ target mailEid pending, op ≠ .create target mailEid pending)
    (world : World) : Spares elementId world (op.apply env world) := by
  cases op with
  | update instanceId mail =>
    refine Spares.trans ?_ (write _ fun _ _ => id)
    exact of_same rfl (MailStore.bodies_refreshMailInPlace mail world.store)
  | sync folder => exact syncFolder folder world
  | clone target mailEid stored => exact assignUidAndUpsert target mailEid stored world
  | create target mailEid pending => exact absurd rfl (notCreate target mailEid pending)
  | load target mailEid mail => exact assignUidAndUpsert target mailEid (newlyStored mail) world
  | entryDelete folders ev => exact entryDelete folders world ev
  | mailDelete deleted =>
    refine (deleteMail deleted world).trans (of_same rfl ?_)
    exact MailStore.bodies_removeMailEverywhere deleted _
  | refreshFolders => exact refreshFolderList world
  | loadCached folder => exact loadCachedFolder folder world
  | backfill folders =>
    exact of_same (backfill_onlyIndexes folders world).files
      (congrArg MailStore.bodies (backfill_store folders world))
  | advance batch =>
    refine Spares.trans ?_ (write _ fun _ _ => id)
    exact of_same rfl rfl
  | wait requests => exact of_same rfl rfl

end Spares

end TutaBridge.Runs
