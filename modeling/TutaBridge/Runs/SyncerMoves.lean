import TutaBridge.Runs.Startup
import TutaBridge.Std.Guarded

/-!
# The moves of the syncer

What each piece of the syncer does to the mails in memory while the bridge starts, and
what that means for a mail that its listings have: it is still to be listed, about to
be stored, or in its folder.
-/

namespace TutaBridge.Runs

open TutaBridge.Std Tuta Store Bridge Sync
open Events

/-! ## Calls that leave the memory alone -/

section Memory

variable {env : Env}

/-- The part of the state that is in memory: the mails and the catch-up state. -/
def memoryOf (world : World) : MailStore × Dict String String := (world.store, world.lastBatchIds)

theorem memoryOf_eq_imp {before after : World} (same : memoryOf after = memoryOf before) :
    after.store = before.store ∧ after.lastBatchIds = before.lastBatchIds :=
  Prod.mk.inj same

theorem memoryOf_call {α : Type} (effect : LocalStore → α × LocalStore) (world : World) :
    memoryOf (world.call env effect).2 = memoryOf world := by
  unfold World.call
  split <;> rfl

theorem memoryOf_write (effect : LocalStore → LocalStore) (world : World) :
    memoryOf (world.write env effect) = memoryOf world := memoryOf_call _ _

theorem memoryOf_retry {α : Type} (answer : Nat → Except String α) (retries : Nat) (world : World) :
    memoryOf (retry answer retries world).2 = memoryOf world := by
  induction retries generalizing world with
  | zero => rfl
  | succ retries ih =>
    unfold retry
    dsimp only
    split
    · rfl
    · exact ih _

theorem memoryOf_readCachedFolder (folder : FolderInfo) (world : World) :
    memoryOf (readCachedFolder env folder world).2 = memoryOf world := by
  have rows : ∀ rows (world : World), memoryOf (readRows env rows world).2 = memoryOf world := by
    intro rows
    induction rows with
    | nil => exact fun world => rfl
    | cons row rest ih =>
      intro world
      have healed : memoryOf (healHasDetails env row world) = memoryOf world := by
        unfold healHasDetails
        split
        · exact memoryOf_write _ _
        · rfl
      unfold readRows
      split
      · rfl
      · exact (ih _).trans healed
  unfold readCachedFolder
  dsimp only
  split
  · exact memoryOf_call _ _
  · split <;> exact (rows _ _).trans (memoryOf_call _ _)

theorem memoryOf_fullSyncDue (folders : List FolderInfo) (world : World) :
    memoryOf (fullSyncDue env folders world).2 = memoryOf world := by
  unfold fullSyncDue
  dsimp only
  rw [memoryOf_call, memoryOf_call]

theorem memoryOf_persistListing (folder : FolderInfo) (newMails : List Mail) (world : World) :
    memoryOf (persistListing env folder newMails world).2 = memoryOf world := by
  have allocated : ∀ ids (world : World),
      memoryOf (allocateNew env folder.id ids world).2 = memoryOf world := by
    intro ids world
    unfold allocateNew
    split
    · rfl
    · dsimp only
      split <;> exact memoryOf_call _ _
  have dropped : ∀ (world : World) (id : String), memoryOf
      ((world.write env (·.deleteEml id)).write env (·.unindexBody id)) = memoryOf world := by
    intro world id
    rw [memoryOf_write, memoryOf_write]
  have pruned : ∀ ids (world : World), memoryOf (pruneDeleted env folder.id ids world) = memoryOf world := by
    intro ids world
    unfold pruneDeleted
    dsimp only
    split
    · exact memoryOf_call _ _
    · exact (foldl_keeps memoryOf dropped _ _).trans (memoryOf_call _ _)
  unfold persistListing
  dsimp only
  rw [pruned, memoryOf_write, allocated]

end Memory

/-! ## What the syncer does to the memory -/

/-- Everything a piece of the syncer can do while there is no shutdown: its phase
and the mails in memory, before and after. -/
inductive SyncerMove (env : Env) : SyncerPhase → MailStore → SyncerPhase → MailStore → Prop where
  | folders {store : MailStore} {folders : List FolderInfo}
      (answered : folders = [] ∨ ∃ tick, env.backend.listFolders tick = .ok folders) :
      SyncerMove env .listingFolders store (.loading folders folders) (store.setFolderList folders)
  | loaded {store : MailStore} {folders : List FolderInfo} :
      SyncerMove env (.loading folders []) store (.deciding folders) store
  | read {store : MailStore} {folders rest : List FolderInfo} {folder : FolderInfo}
      {mails : List StoredMail} :
      SyncerMove env (.loading folders (folder :: rest)) store (.cached folders folder mails rest) store
  | unread {store : MailStore} {folders rest : List FolderInfo} {folder : FolderInfo} :
      SyncerMove env (.loading folders (folder :: rest)) store (.loading folders rest) store
  | filled {store : MailStore} {folders rest : List FolderInfo} {folder : FolderInfo}
      {mails : List StoredMail} :
      SyncerMove env (.cached folders folder mails rest) store (.loading folders rest)
        (store.setFolder folder.id mails)
  | due {store : MailStore} {folders : List FolderInfo} :
      SyncerMove env (.deciding folders) store (.checking folders folders true) store
  | notDue {store : MailStore} {folders : List FolderInfo} :
      SyncerMove env (.deciding folders) store (.signalling folders) store
  | finished {store : MailStore} {folders : List FolderInfo} {allOk : Bool} :
      SyncerMove env (.checking folders [] allOk) store (.signalling folders) store
  | nextFolder {store : MailStore} {folders rest : List FolderInfo} {folder : FolderInfo}
      {allOk : Bool} :
      SyncerMove env (.checking folders (folder :: rest) allOk) store
        (.listing folders folder rest allOk) store
  | listed {store : MailStore} {folders rest : List FolderInfo} {folder : FolderInfo} {allOk : Bool}
      {tick : Nat} {newMails : List Mail}
      (answered : env.backend.loadMailIdsForFolder tick folder = .ok newMails) :
      SyncerMove env (.listing folders folder rest allOk) store
        (.listed folders folder newMails rest allOk) store
  | failed {store : MailStore} {folders rest : List FolderInfo} {folder : FolderInfo}
      {allOk : Bool} :
      SyncerMove env (.listing folders folder rest allOk) store (.checking folders rest false) store
  | persisted {store : MailStore} {folders rest : List FolderInfo} {folder : FolderInfo}
      {allOk : Bool} {newMails : List Mail} {mails : List StoredMail}
      (sameMails : mails.map StoredMail.mail = newMails) :
      SyncerMove env (.listed folders folder newMails rest allOk) store
        (.persisted folders folder mails rest allOk) store
  | replaced {store : MailStore} {folders rest : List FolderInfo} {folder : FolderInfo}
      {allOk : Bool} {mails : List StoredMail} :
      SyncerMove env (.persisted folders folder mails rest allOk) store
        (.checking folders rest allOk) (store.setFolder folder.id mails)
  | signalled {store : MailStore} {folders : List FolderInfo} :
      SyncerMove env (.signalling folders) store (.running folders) store

/-- The syncer's own channel: only its signal changes it. -/
def SyncerPhase.signals : SyncerPhase → Bool
  | .signalling _ => true
  | _ => false

/-- A piece that leaves the memory as it was makes a move that does. -/
theorem SyncerMove.of_kept {env : Env} {syncer later : SyncerPhase} {world next : World}
    {startupDone : Bool} (kept : memoryOf next = memoryOf world) (quiet : syncer.signals = false)
    (move : SyncerMove env syncer world.store later world.store) :
    SyncerMove env syncer world.store later next.store ∧
      next.lastBatchIds = world.lastBatchIds ∧ startupDone = (startupDone || syncer.signals) := by
  obtain ⟨sameStore, sameIds⟩ := memoryOf_eq_imp kept
  refine ⟨?_, sameIds, by rw [quiet, Bool.or_false]⟩
  rw [sameStore]
  exact move

theorem syncerMove {env : Env} {state next : Startup} (notShutdown : state.shutdown = false)
    (stepped : syncerStep env state = some next) :
    SyncerMove env state.syncer state.world.store next.syncer next.world.store ∧
      next.world.lastBatchIds = state.world.lastBatchIds ∧
      next.startupDone = (state.startupDone || state.syncer.signals) := by
  obtain ⟨world, syncer, handler, queue, closed, startupDone, shutdown⟩ := state
  cases notShutdown
  cases syncer with
  | listingFolders =>
    have asked := memoryOf_retry env.backend.listFolders maxRetries world
    simp only [syncerStep] at stepped
    cases stepped
    refine ⟨?_, (memoryOf_eq_imp asked).2, by simp [SyncerPhase.signals]⟩
    dsimp only [World.mapStore_store]
    rw [(memoryOf_eq_imp asked).1]
    cases answer : (retry env.backend.listFolders maxRetries world).1 with
    | ok folders => exact .folders (.inr (retry_eq_ok_imp answer))
    | error message => exact .folders (.inl rfl)
  | loading folders rest =>
    cases rest with
    | nil =>
      cases stepped
      exact SyncerMove.of_kept rfl rfl .loaded
    | cons folder rest =>
      have read := @memoryOf_readCachedFolder env folder world
      simp only [syncerStep] at stepped
      split at stepped <;> cases stepped
      · exact SyncerMove.of_kept read rfl .read
      · exact SyncerMove.of_kept read rfl .unread
  | cached folders folder mails rest =>
    cases stepped
    exact ⟨.filled, rfl, by simp [SyncerPhase.signals]⟩
  | deciding folders =>
    have decided := @memoryOf_fullSyncDue env folders world
    simp only [syncerStep] at stepped
    split at stepped <;> cases stepped
    · exact SyncerMove.of_kept decided rfl .due
    · exact SyncerMove.of_kept decided rfl .notDue
  | checking folders rest allOk =>
    cases rest with
    | nil =>
      have marked := @memoryOf_write env (·.setMeta fullMetadataMarker "1") world
      simp only [syncerStep] at stepped
      cases stepped
      cases allOk with
      | true => exact SyncerMove.of_kept marked rfl .finished
      | false => exact SyncerMove.of_kept rfl rfl .finished
    | cons folder rest =>
      cases stepped
      exact SyncerMove.of_kept rfl rfl .nextFolder
  | listing folders folder rest allOk =>
    have asked : memoryOf (listFolder env folder world).2 = memoryOf world := memoryOf_retry _ _ _
    simp only [syncerStep] at stepped
    split at stepped
    next newMails answer =>
      cases stepped
      obtain ⟨tick, answered⟩ := retry_eq_ok_imp answer
      exact SyncerMove.of_kept asked rfl (.listed answered)
    next =>
      cases stepped
      exact SyncerMove.of_kept asked rfl .failed
  | listed folders folder newMails rest allOk =>
    have written := @memoryOf_persistListing env folder newMails world
    cases stepped
    refine SyncerMove.of_kept written rfl (.persisted ?_)
    simp [persistListing, List.map_map, Function.comp_def]
  | persisted folders folder mails rest allOk =>
    cases stepped
    exact ⟨.replaced, rfl, by simp [SyncerPhase.signals]⟩
  | signalling folders =>
    cases stepped
    exact ⟨.signalled, rfl, by simp [SyncerPhase.signals]⟩
  | running folders =>
    simp only [syncerStep] at stepped
    cases stepped
  | ended => cases stepped

/-! ## What is listed -/

/-- The syncer's listing of the folder is still to come. -/
def SyncerPhase.awaits : SyncerPhase → FolderInfo → Bool
  | .listingFolders, _ | .loading .., _ | .cached .., _ | .deciding _, _ => true
  | .checking _ rest _, folder => folder ∈ rest
  | .listing _ current rest _, folder => folder = current ∨ folder ∈ rest
  | .listed _ _ _ rest _, folder | .persisted _ _ _ rest _, folder => folder ∈ rest
  | .signalling _, _ | .running _, _ | .ended, _ => false

/-- The syncer ends its loop with `all_ok`. -/
def SyncerPhase.completes : SyncerPhase → Bool
  | .checking _ [] allOk => allOk
  | _ => false

/-- No listing of the running full sync has failed. -/
def SyncerPhase.succeeding : SyncerPhase → Bool
  | .listingFolders | .loading .. | .cached .. | .deciding _ => true
  | .checking _ _ allOk | .listing _ _ _ allOk | .listed _ _ _ _ allOk
  | .persisted _ _ _ _ allOk => allOk
  | .signalling _ | .running _ | .ended => false

/-- The folder list the syncer works on, once it has one. -/
def SyncerPhase.folders? : SyncerPhase → Option (List FolderInfo)
  | .listingFolders | .ended => none
  | .loading folders _ | .cached folders _ _ _ | .deciding folders | .checking folders _ _
  | .listing folders _ _ _ | .listed folders _ _ _ _ | .persisted folders _ _ _ _
  | .signalling folders | .running folders => some folders

/-- The folder the full sync is at. -/
def SyncerPhase.current? : SyncerPhase → Option FolderInfo
  | .listing _ folder _ _ | .listed _ folder _ _ _ | .persisted _ folder _ _ _ => some folder
  | _ => none

/-- The folders the full sync is not through with. -/
def SyncerPhase.remaining : SyncerPhase → List FolderInfo
  | .checking _ rest _ | .listing _ _ rest _ | .listed _ _ _ rest _ | .persisted _ _ _ rest _ => rest
  | _ => []

/-- The mail will be listed, was listed and is about to be stored, or is in its
folder. -/
def ListedOrHeld (phase : SyncerPhase) (store : MailStore) (folder : FolderInfo) (id : String) :
    Prop :=
  phase.awaits folder = true ∨
    match phase with
    | .listed _ current newMails _ _ =>
      if folder = current then id ∈ newMails.filterMap Mail.elementId else store.Holds folder.id id
    | .persisted _ current mails _ _ =>
      if folder = current then ∃ stored ∈ mails, stored.elementId = some id
      else store.Holds folder.id id
    | _ => store.Holds folder.id id

/-- The phase agrees with the folder list in memory, whose folders have ids and
entries lists of their own. -/
structure KnowsFolders (phase : SyncerPhase) (store : MailStore) : Prop where
  list : ∀ folders ∈ phase.folders?, store.folderList = folders
  current : ∀ folder ∈ phase.current?, folder ∈ store.folderList
  remaining : ∀ folder ∈ phase.remaining, folder ∈ store.folderList
  ids : (store.folderList.map FolderInfo.id).Nodup
  entries : (store.folderList.map FolderInfo.entriesListId).Nodup

/-- Where the full sync is at no folder, the folder list decides. -/
theorem KnowsFolders.of_list {phase : SyncerPhase} {store : MailStore}
    (list : ∀ folders ∈ phase.folders?, store.folderList = folders) (noCurrent : phase.current? = none)
    (noRemaining : phase.remaining = []) (ids : (store.folderList.map FolderInfo.id).Nodup)
    (entries : (store.folderList.map FolderInfo.entriesListId).Nodup) : KnowsFolders phase store where
  list := list
  current folder isCurrent := by
    rw [noCurrent] at isCurrent
    cases isCurrent
  remaining folder mem := by
    rw [noRemaining] at mem
    cases mem
  ids := ids
  entries := entries

/-- The server's folders have ids and entries lists of their own. -/
def ListsFolders (backend : MailBackend) : Prop :=
  ∀ tick folders, backend.listFolders tick = .ok folders →
    (folders.map FolderInfo.id).Nodup ∧ (folders.map FolderInfo.entriesListId).Nodup

section Listing

variable {env : Env} {phase nextPhase : SyncerPhase} {store nextStore : MailStore}

theorem knowsFolders_move (lists : ListsFolders env.backend)
    (move : SyncerMove env phase store nextPhase nextStore) (knows : KnowsFolders phase store) :
    KnowsFolders nextPhase nextStore := by
  obtain ⟨list, current, remaining, ids, entries⟩ := knows
  cases move with
  | folders answered =>
    rcases answered with rfl | ⟨tick, answered⟩
    · exact .of_list (fun _ isList => Option.some.inj isList) rfl rfl List.nodup_nil List.nodup_nil
    · obtain ⟨ids, entries⟩ := lists _ _ answered
      exact .of_list (fun _ isList => Option.some.inj isList) rfl rfl ids entries
  | loaded | read | unread | filled | notDue | finished | signalled =>
    exact .of_list list rfl rfl ids entries
  | due =>
    refine ⟨list, nofun, fun folder mem => ?_, ids, entries⟩
    rw [list _ rfl]
    exact mem
  | nextFolder =>
    refine ⟨list, fun folder isCurrent => ?_, fun folder mem => ?_, ids, entries⟩
    · obtain rfl := Option.some.inj isCurrent
      exact remaining _ List.mem_cons_self
    · exact remaining folder (List.mem_cons_of_mem _ mem)
  | failed | replaced => exact ⟨list, nofun, remaining, ids, entries⟩
  | listed | persisted => exact ⟨list, current, remaining, ids, entries⟩

/-- In a full sync without failures the syncer loses no mail its listings have. -/
theorem listedOrHeld_move (knows : KnowsFolders phase store) (move : SyncerMove env phase store nextPhase nextStore)
    (sound : nextPhase.succeeding = true ∨ phase.completes = true ∨ phase.signals = true)
    {folder : FolderInfo} {id : String} (known : folder ∈ nextStore.folderList)
    (answers : ∀ tick newMails, env.backend.loadMailIdsForFolder tick folder = .ok newMails →
      id ∈ newMails.filterMap Mail.elementId)
    (before : ListedOrHeld phase store folder id) : ListedOrHeld nextPhase nextStore folder id := by
  cases move with
  | folders | loaded | read | unread | filled => exact .inl rfl
  | due =>
    rw [knows.list _ rfl] at known
    exact .inl (by simpa [SyncerPhase.awaits] using known)
  | notDue => simp [SyncerPhase.succeeding, SyncerPhase.completes, SyncerPhase.signals] at sound
  | finished =>
    refine .inr ?_
    simpa [ListedOrHeld, SyncerPhase.awaits] using before
  | nextFolder => simpa [ListedOrHeld, SyncerPhase.awaits] using before
  | @listed _ _ _ current _ _ _ answered =>
    by_cases isCurrent : folder = current
    · refine .inr ?_
      dsimp only
      rw [if_pos isCurrent]
      exact answers _ _ (isCurrent ▸ answered)
    · simpa [ListedOrHeld, SyncerPhase.awaits, isCurrent] using before
  | failed => simp [SyncerPhase.succeeding, SyncerPhase.completes, SyncerPhase.signals] at sound
  | @persisted _ _ _ current _ _ mails sameMails =>
    subst sameMails
    refine before.imp_right fun listed => ?_
    dsimp only at listed ⊢
    split
    next isCurrent =>
      rw [if_pos isCurrent, List.filterMap_map] at listed
      exact List.mem_filterMap.mp listed
    next other =>
      rw [if_neg other] at listed
      exact listed
  | @replaced _ _ _ current _ mails =>
    refine before.imp_right fun stored => ?_
    dsimp only at stored ⊢
    rw [MailStore.Holds, MailStore.getFolder_setFolder]
    by_cases isCurrent : folder = current
    · rw [if_pos isCurrent] at stored
      rw [if_pos (congrArg FolderInfo.id isCurrent)]
      exact stored
    · rw [if_neg isCurrent] at stored
      have otherId : folder.id ≠ current.id := by
        intro sameId
        exact isCurrent (List.inj_on_of_nodup_map knows.ids known (knows.current _ rfl) sameId)
      rw [if_neg otherId]
      exact stored
  | signalled =>
    refine .inr ?_
    simpa [ListedOrHeld, SyncerPhase.awaits] using before

/-- When the syncer is through, listed mail is in its folder. -/
theorem holds_of_listedOrHeld {folder : FolderInfo} {id : String}
    (finished : phase.signals = true ∨ ∃ folders, phase = .running folders)
    (listed : ListedOrHeld phase store folder id) : store.Holds folder.id id := by
  cases phase with
  | signalling folders | running folders =>
    simpa [ListedOrHeld, SyncerPhase.awaits] using listed
  | _ => rcases finished with signals | ⟨_, running⟩ <;> contradiction

section

variable (move : SyncerMove env phase store nextPhase nextStore)

include move

theorem succeeding_of_move
    (succeeds : nextPhase.succeeding = true ∨ phase.completes = true) : phase.succeeding = true := by
  cases move with
  | finished => simpa [SyncerPhase.succeeding, SyncerPhase.completes] using succeeds
  | failed => simp [SyncerPhase.succeeding, SyncerPhase.completes] at succeeds
  | signalled => simp [SyncerPhase.succeeding, SyncerPhase.completes] at succeeds
  | folders | loaded | read | unread | filled | due | notDue => rfl
  | nextFolder | listed | persisted | replaced =>
    simpa [SyncerPhase.succeeding, SyncerPhase.completes] using succeeds

/-- Only the loading of the folder list changes it. -/
theorem folderList_move : phase = .listingFolders ∨ nextStore.folderList = store.folderList := by
  cases move with
  | folders => exact .inl rfl
  | _ => exact .inr rfl

theorem running_of_signals (signals : phase.signals = true) : ∃ folders, nextPhase = .running folders := by
  cases move with
  | @signalled _ folders => exact ⟨folders, rfl⟩
  | _ => cases signals

theorem signals_of_completes (completes : phase.completes = true) : nextPhase.signals = true := by
  cases move with
  | finished => rfl
  | _ => cases completes

end

theorem not_move_running {folders : List FolderInfo} :
    ¬ SyncerMove env (.running folders) store nextPhase nextStore := nofun

theorem move_ne_listingFolders (move : SyncerMove env phase store nextPhase nextStore) :
    nextPhase ≠ .listingFolders := by
  cases move <;> exact nofun

end Listing

end TutaBridge.Runs
