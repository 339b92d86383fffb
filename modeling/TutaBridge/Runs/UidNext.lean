import TutaBridge.Imap.Session
import TutaBridge.Runs.StoreOps
import TutaBridge.Std.Steps
import TutaBridge.Store.UidHistory

/-!
# The next UID a session announces

SELECT and STATUS announce a next UID. It is the session's own counter, one for all
mailboxes, which a refresh of a view raises above the UIDs that it saw. UIDs are
allocated from another counter, one for each folder, on disk.
-/

namespace TutaBridge.Runs

open TutaBridge.Std Tuta Store Bridge Sync
open Events Imap

variable {world : World} {pair : String × Nat}

/-! ## Allocations -/

/-- What a call of `allocate_folder_uids` hands out, nothing when it fails. -/
def allocatedBy (env : Env) (folderId : String) (ids : List String) (world : World) : List (String × Nat) :=
  match (world.call env (LocalStore.allocateFolderUids folderId ids)).1 with
  | .error _ => []
  | .ok uids => uids.rows.map fun row => (folderId, row.2)

/-- The UIDs an operation allocates, each with its folder. -/
def StoreOp.allocated (env : Env) (world : World) : StoreOp → List (String × Nat)
  | .clone target mailEid _ | .load target mailEid _ => allocatedBy env target.id [mailEid] world
  | .create target mailEid pending =>
    allocatedBy env target.id [mailEid] (match inlineRfc2822 env.rendering pending with
      | none => world
      | some eml => persistInlineBody env mailEid pending.details eml world)
  | .sync folder =>
    let listed := listFolder env folder world
    match listed.1 with
    | .error _ => []
    | .ok newMails =>
      let ids := newElementIds (listed.2.store.getFolder folder.id) newMails
      if ids.isEmpty then [] else allocatedBy env folder.id ids listed.2
  | _ => []

/-- The counter of the folder has not gone back. -/
def Advances (folderId : String) (before after : World) : Prop :=
  before.localStore.nextUid folderId ≤ after.localStore.nextUid folderId

namespace Advances

variable {env : Env} {folderId : String}

theorem of_same {before after : World} (disk : after.localStore = before.localStore) :
    Advances folderId before after := by
  rw [Advances, disk]

theorem refl (world : World) : Advances folderId world world := of_same rfl

theorem trans {first second third : World} (early : Advances folderId first second)
    (late : Advances folderId second third) : Advances folderId first third := Nat.le_trans early late

theorem foldl {α : Type} {step : World → α → World}
    (each : ∀ world item, Advances folderId world (step world item)) (items : List α)
    (world : World) : Advances folderId world (items.foldl step world) := by
  induction items generalizing world with
  | nil => exact refl world
  | cons head rest ih =>
    exact (each world head).trans (ih (step world head))

theorem call {α : Type} {effect : LocalStore → α × LocalStore} (world : World)
    (grows : ∀ store, store.nextUid folderId ≤ (effect store).2.nextUid folderId) :
    Advances folderId world (world.call env effect).2 :=
  @World.call_localStore_rel env (fun before after => before.nextUid folderId ≤ after.nextUid folderId)
    (fun _ => Nat.le_refl _) _ _ grows world

theorem write {effect : LocalStore → LocalStore} (world : World)
    (grows : ∀ store, store.nextUid folderId ≤ (effect store).nextUid folderId) :
    Advances folderId world (world.write env effect) := call world grows

theorem writeAll {effects : List (LocalStore → LocalStore)} (world : World)
    (grows : ∀ effect ∈ effects, ∀ store : LocalStore, store.nextUid folderId ≤ (effect store).nextUid folderId) :
    Advances folderId world (world.writeAll env effects) := by
  induction effects generalizing world with
  | nil => exact refl world
  | cons effect rest ih =>
    have first : Advances folderId world (world.call env fun store => ((), effect store)).2 :=
      call world (grows effect List.mem_cons_self)
    unfold World.writeAll
    dsimp only
    split
    · exact first
    · exact first.trans (ih _ fun effect mem =>
        grows effect (List.mem_cons_of_mem _ mem))

theorem deleteMail (elementId : String) (world : World) :
    Advances folderId world (world.deleteMail env elementId) := by
  refine writeAll world fun effect mem => ?_
  simp only [List.mem_cons, List.not_mem_nil, or_false] at mem
  rcases mem with rfl | rfl | rfl <;> exact fun _ => Nat.le_refl _

theorem writeBody (elementId rfc2822 : String) (world : World) :
    Advances folderId world (Sync.writeBody env elementId rfc2822 world) := by
  refine writeAll world fun effect mem => ?_
  simp only [List.mem_cons, List.not_mem_nil, or_false] at mem
  rcases mem with rfl | rfl <;> exact fun _ => Nat.le_refl _

theorem refreshFolderList (world : World) : Advances folderId world (Events.refreshFolderList env world) := by
  have dropped : ∀ (world : World) (id : String), Advances folderId world (dropFolder env world id) := by
    intro world id
    have rows : Advances folderId world (world.call env (LocalStore.deleteFolderMails id)).2 :=
      call world fun _ => Nat.le_refl _
    unfold dropFolder
    dsimp only
    split
    · exact rows
    · refine rows.trans (foldl (fun world id => ?_) _ _)
      exact write world fun _ => Nat.le_refl _
  unfold Events.refreshFolderList
  dsimp only
  split
  · exact of_same rfl
  · refine Advances.trans ?_ (foldl dropped _ _)
    exact of_same rfl

/-- An allocation moves the counter of its folder forward. -/
theorem allocate (target : String) (ids : List String) (world : World) :
    Advances folderId world (world.call env (LocalStore.allocateFolderUids target ids)).2 := by
  refine call world fun store => ?_
  rw [LocalStore.nextUid_allocateFolderUids]
  split
  next same =>
    rw [same]
    exact Nat.le_add_right _ _
  next => exact Nat.le_refl _

theorem syncFolder (folder : FolderInfo) (world : World) :
    Advances folderId world (Sync.syncFolder env folder world).2 := by
  cases listed : (listFolder env folder world).1 with
  | error message =>
    exact of_same (syncFolder_of_error listed).2
  | ok newMails =>
    refine @syncFolder_localStore_rel _ _ _ env
      (fun before after => before.nextUid folderId ≤ after.nextUid folderId)
      (fun _ => Nat.le_refl _) Nat.le_trans listed (fun ids store => ?_)
      (fun _ _ => Nat.le_refl _) (fun _ => Nat.le_refl _)
      fun _ _ _ => ⟨Nat.le_refl _, Nat.le_refl _⟩
    rw [LocalStore.nextUid_allocateFolderUids]
    split
    next same =>
      rw [same]
      exact Nat.le_add_right _ _
    next => exact Nat.le_refl _

theorem assignUidAndUpsert (target : FolderInfo) (mailEid : String) (stored : StoredMail) (world : World) :
    Advances folderId world (Events.assignUidAndUpsert env target mailEid stored world) :=
  (allocate target.id [mailEid] world).trans (write _ fun _ => Nat.le_refl _)

theorem loadCachedFolder (folder : FolderInfo) (world : World) :
    Advances folderId world (Sync.loadCachedFolder env folder world).2 := by
  have rows : ∀ (rows : List MailMetadata) (world : World),
      Advances folderId world (readRows env rows world).2 := by
    intro rows
    induction rows with
    | nil => exact refl
    | cons row rest ih =>
      intro world
      have healed : Advances folderId world (healHasDetails env row world) := by
        unfold healHasDetails
        split
        · exact write world fun _ => Nat.le_refl _
        · exact refl world
      unfold readRows
      split
      · exact refl world
      · exact healed.trans (ih _)
  have loaded : Advances folderId world (world.call env fun store =>
      (store.loadFolderMetadata folder.id, store)).2 := call world fun _ => Nat.le_refl _
  have read : Advances folderId world (readCachedFolder env folder world).2 := by
    unfold readCachedFolder
    dsimp only
    split
    · exact loaded
    · split <;> exact loaded.trans (rows _ _)
  unfold Sync.loadCachedFolder
  dsimp only
  split <;> exact read

theorem backfill (folders : List FolderInfo) (world : World) :
    Advances folderId world (Sync.backfill env folders world) := by
  have row : ∀ (state : Bool × World) (row : MailMetadata),
      Advances folderId state.2 (backfillRow env state row).2 := by
    intro state row
    have read : Advances folderId state.2 (state.2.call env fun store =>
        (store.readEml row.elementId, store)).2 := call _ fun _ => Nat.le_refl _
    unfold backfillRow
    dsimp only
    split
    · exact read
    · exact read
    · split <;> exact read.trans (call _ fun _ => Nat.le_refl _)
  have loop : ∀ {α : Type} {step : Bool × World → α → Bool × World},
      (∀ state item, Advances folderId state.2 (step state item).2) →
      ∀ (items : List α) (state : Bool × World), Advances folderId state.2 (items.foldl step state).2 := by
    intro α step each items
    induction items with
    | nil => exact fun state => refl _
    | cons head rest ih =>
      exact fun state => (each state head).trans (ih _)
  have folder : ∀ (state : Bool × World) (folder : FolderInfo),
      Advances folderId state.2 (backfillFolder env state folder).2 := by
    intro state folder
    have loaded : Advances folderId state.2 (state.2.call env fun store =>
        (store.loadFolderMetadata folder.id, store)).2 := call _ fun _ => Nat.le_refl _
    unfold backfillFolder
    dsimp only
    split
    · exact loaded
    · exact loaded.trans (loop row _ (state.1, _))
  have marked : Advances folderId world (backfillDone env world).2 := by
    have read : Advances folderId world (world.call env fun store =>
        (store.getMeta ftsBackfillMarker, store)).2 := call _ fun _ => Nat.le_refl _
    unfold backfillDone
    dsimp only
    split <;> exact read
  have done := marked.trans (loop folder folders (true, (backfillDone env world).2))
  unfold Sync.backfill
  dsimp only
  split
  · exact marked
  · split
    · exact done.trans (write _ fun _ => Nat.le_refl _)
    · exact done

/-- No operation moves a counter back. -/
theorem apply (op : StoreOp) (world : World) : Advances folderId world (op.apply env world) := by
  cases op with
  | update instanceId mail =>
    refine Advances.trans ?_ (write _ fun _ => Nat.le_refl _)
    exact of_same rfl
  | sync folder => exact syncFolder folder world
  | clone target mailEid stored => exact assignUidAndUpsert target mailEid stored world
  | create target mailEid pending =>
    show Advances folderId world (applyInlineCreate env target mailEid pending world)
    unfold applyInlineCreate
    dsimp only
    refine Advances.trans ?_ (assignUidAndUpsert target mailEid _ _)
    split
    · exact refl world
    · exact (writeBody mailEid _ world).trans (of_same rfl)
  | load target mailEid mail => exact assignUidAndUpsert target mailEid (newlyStored mail) world
  | entryDelete folders ev =>
    show Advances folderId world (applyMailSetEntryDelete env folders world ev)
    obtain same | ⟨_, mailEid, source, _, _, ⟨_, removed⟩ | ⟨_, deleted⟩⟩ :=
      deleteOutcome env folders world ev
    · rw [same]
      exact refl world
    · rw [removed]
      exact of_same rfl
    · rw [deleted]
      refine Advances.trans ?_ (deleteMail mailEid _)
      exact of_same rfl
  | mailDelete deleted => exact (deleteMail deleted world).trans (of_same rfl)
  | refreshFolders => exact refreshFolderList world
  | loadCached folder => exact loadCachedFolder folder world
  | backfill folders => exact backfill folders world
  | advance batch =>
    refine Advances.trans ?_ (write _ fun _ => Nat.le_refl _)
    exact of_same rfl
  | wait requests => exact of_same rfl

/-! ### The commands -/

theorem getBody (elementId : String) (world : World) :
    Advances folderId world (Imap.getBody env elementId world).2 := by
  have read : ∀ world : World, Advances folderId world (readBody env elementId world).2 := by
    intro world
    have called : Advances folderId world (world.call env fun store =>
        (store.readEml elementId, store)).2 := call world fun _ => Nat.le_refl _
    unfold readBody
    dsimp only
    split
    · split <;> exact called
    · exact refl world
  have looked : ∀ world : World, Advances folderId world (lookUp elementId world).2 :=
    fun _ => of_same rfl
  have cached : ∀ (rfc2822 : String) (world : World),
      Advances folderId world (cacheRead elementId rfc2822 world) := fun _ _ => of_same rfl
  cases hit : (lookUp elementId world).1 with
  | some body =>
    rw [getBody_hit hit]
    exact looked world
  | none =>
    cases found : (readBody env elementId (lookUp elementId world).2).1 with
    | none =>
      rw [getBody_missing hit found]
      exact (looked world).trans (read _)
    | some rfc2822 =>
      rw [getBody_read hit found]
      exact (((looked world).trans (read _)).trans (cached rfc2822 _)).trans (looked _)

theorem downloadBody (target : FetchTarget) (world : World) :
    Advances folderId world (Imap.downloadBody env target world).2 := by
  unfold Imap.downloadBody
  dsimp only
  split
  · exact of_same rfl
  · split <;> exact of_same rfl

theorem fetchBody (target : FetchTarget) (world : World) :
    Advances folderId world (Imap.fetchBody env target world).2 := by
  unfold Imap.fetchBody
  dsimp only
  split
  · exact getBody target.elementId world
  · have available : Advances folderId world (Imap.getBody env target.elementId world).2 :=
      getBody target.elementId world
    split
    · exact available.trans (getBody _ _)
    · split
      · exact available.trans (of_same rfl)
      · have asked := available.trans (@of_same folderId _
          { (Imap.getBody env target.elementId world).2 with
            store := ((Imap.getBody env target.elementId world).2.store.bodyFetchOnCooldown
              target.elementId (env.now (Imap.getBody env target.elementId world).2.tick)).2 } rfl)
        have downloaded := asked.trans (@downloadBody env _ target _)
        split
        · exact downloaded
        · refine (downloaded.trans ?_).trans (getBody _ _)
          exact (writeBody target.elementId _ _).trans (of_same rfl)

theorem fetchBodies (indices : List Nat) (responses : List Response) (session : ImapSession) (world : World) :
    Advances folderId world (session.fetchBodies env indices responses world).2.2 := by
  induction indices generalizing responses session world with
  | nil => exact refl world
  | cons index rest ih =>
    rw [ImapSession.fetchBodies]
    split
    next cached folder viewed selected =>
      split
      next elementId _ =>
        have fetched := @fetchBody env folderId ⟨folder.id, elementId, cached.mail, cached.bodyLoaded⟩ world
        dsimp only
        split
        · exact fetched
        · exact fetched.trans (ih _ _ _)
      next =>
        have asked : Advances folderId world (ImapSession.fetchUnnamed env cached.mail world).2 := by
          unfold ImapSession.fetchUnnamed
          dsimp only
          split <;> exact of_same rfl
        split
        · exact ih _ _ _
        · dsimp only
          split
          · exact asked.trans (ih _ _ _)
          · exact asked
    next => exact ih _ _ _

/-- No command moves a counter. -/
theorem handleCommand (server : Server) (command : Command) (session : ImapSession) (world : World) :
    Advances folderId world (session.handleCommand env server command world).2.2 := by
  have performed : ∀ (request : Option Request),
      Advances folderId world (ImapSession.perform server request world).2 := by
    intro request
    cases request <;> exact of_same rfl
  rw [ImapSession.handleCommand.eq_def]
  split
  · unfold ImapSession.handleIdle
    split <;> exact refl world
  · cases command with
    | login | logout | select | close | idle | done | other => exact refl world
    | fetch set uidMode needsBody =>
      show Advances folderId world (session.cmdFetch env set uidMode needsBody world).2.2
      unfold ImapSession.cmdFetch
      split
      · exact refl world
      · split
        · exact fetchBodies _ _ _ _
        · exact refl world
    | store set uidMode change =>
      show Advances folderId world (session.cmdStore server set uidMode change world).2.2
      have seen : ∀ indices, Advances folderId world
          (session.storeSeen server indices change.adding world).2.2 := by
        intro indices
        unfold ImapSession.storeSeen
        dsimp only
        split <;> exact of_same rfl
      unfold ImapSession.cmdStore
      split
      · exact refl world
      · dsimp only
        split
        · exact seen _
        · exact refl world
    | expunge =>
      show Advances folderId world (session.cmdExpunge server world).2.2
      unfold ImapSession.cmdExpunge
      split
      · exact refl world
      · dsimp only
        split <;> exact performed _
    | move set uidMode mailbox =>
      show Advances folderId world (session.cmdMove server set uidMode mailbox world).2.2
      unfold ImapSession.cmdMove
      split
      · exact refl world
      · split
        · exact refl world
        · dsimp only
          split
          · exact refl world
          · split <;> exact performed _

end Advances

/-! ## A session among the other tasks -/

/-- A STATUS response. -/
structure StatusReply where
  messages : Nat
  unseen : Nat
  uidNext : Nat
deriving DecidableEq, Repr

/-- `cmd_status`, none for a `NO`. A mailbox that is not there has no messages. -/
def cmdStatus (mailbox : String) (session : ImapSession) (world : World) : Option StatusReply :=
  if session.state = .notAuthenticated then none
  else
    let stored := match folderByImapPath world.store mailbox with
      | some folder => world.store.getFolder folder.id
      | none => []
    some ⟨stored.length, (stored.filter (·.mail.unread)).length, session.uidNext⟩

/-- A session and the stores. -/
structure SessionRun where
  session : ImapSession
  world : World

/-- What happens while the session lasts. A check reads the store twice, and it may have
changed since `read`. -/
inductive SessionEvent where
  | command (command : Command)
  | status (mailbox : String)
  | checkNewMail (read : MailStore)
  | store (op : StoreOp)

def sessionStep (env : Env) (server : Server) (run : SessionRun) : SessionEvent → SessionRun
  | .command command =>
    let done := run.session.handleCommand env server command run.world
    ⟨done.2.1, done.2.2⟩
  | .status _ => run
  | .checkNewMail read =>
    if run.session.idleTag.isSome then
      { run with session := (run.session.checkNewMail read run.world.store).2 }
    else run
  | .store op => { run with world := op.apply env run.world }

/-- The next UID among the responses of a SELECT. -/
def announcedUid : List Response → Option Nat
  | [] => none
  | .uidNext uid :: _ => some uid
  | _ :: rest => announcedUid rest

/-- The mailbox and the next UID an event announces to the client. -/
def announces (run : SessionRun) : SessionEvent → Option (FolderInfo × Nat)
  | .command (.select mailbox) =>
    if run.session.idleTag.isSome then none
    else
      (folderByImapPath run.world.store mailbox).bind fun folder =>
        (announcedUid (run.session.cmdSelect mailbox run.world).1).map fun uid => (folder, uid)
  | .status mailbox =>
    if run.session.idleTag.isSome then none
    else
      (folderByImapPath run.world.store mailbox).bind fun folder =>
        (cmdStatus mailbox run.session run.world).map fun reply => (folder, reply.uidNext)
  | _ => none

/-- The UIDs an event allocates. -/
def SessionEvent.allocated (env : Env) (world : World) : SessionEvent → List (String × Nat)
  | .store op => op.allocated env world
  | _ => []

/-- The UIDs that are allocated over a run. -/
def allocations (env : Env) (server : Server) : SessionRun → List SessionEvent → List (String × Nat)
  | _, [] => []
  | run, event :: rest =>
    event.allocated env run.world ++ allocations env server (sessionStep env server run event) rest

/-- Every next UID that is announced in the run is greater than the UIDs that the mailbox
has then, and no greater than a UID that is allocated in it later in the run. -/
def PredictionsHold (env : Env) (server : Server) : SessionRun → List SessionEvent → Prop
  | _, [] => True
  | run, event :: rest =>
    (∀ announced ∈ announces run event,
      (∀ stored ∈ run.world.store.getFolder announced.1.id, stored.uid < announced.2) ∧
      ∀ pair ∈ allocations env server (sessionStep env server run event) rest,
        pair.1 = announced.1.id → announced.2 ≤ pair.2) ∧
    PredictionsHold env server (sessionStep env server run event) rest

instance PredictionsHold.decide {env : Env} {server : Server} :
    ∀ run events, Decidable (PredictionsHold env server run events)
  | _, [] => .isTrue trivial
  | run, event :: rest =>
    have _ : Decidable (PredictionsHold env server (sessionStep env server run event) rest) :=
      decide (sessionStep env server run event) rest
    inferInstanceAs (Decidable ((∀ announced ∈ announces run event,
        (∀ stored ∈ run.world.store.getFolder announced.1.id, stored.uid < announced.2) ∧
        ∀ pair ∈ allocations env server (sessionStep env server run event) rest,
          pair.1 = announced.1.id → announced.2 ≤ pair.2) ∧
      PredictionsHold env server (sessionStep env server run event) rest))

/-- The counter of the session is right for the mailbox: no greater than the counter of the
folder, which for a SELECT is above all UIDs in the folder; for a STATUS, which looks at no
mail, the session's counter is above them already. -/
def Predictable (run : SessionRun) (folder : FolderInfo) : SessionEvent → Prop
  | .status _ =>
    (∀ stored ∈ run.world.store.getFolder folder.id, stored.uid < run.session.uidNext) ∧
      run.session.uidNext ≤ run.world.localStore.nextUid folder.id
  | _ =>
    (∀ stored ∈ run.world.store.getFolder folder.id, stored.uid < run.world.localStore.nextUid folder.id) ∧
      run.session.uidNext ≤ run.world.localStore.nextUid folder.id

/-- All counters are 32-bit numbers, with room for one more UID. -/
def CountersFit (world : World) : Prop :=
  ∀ row ∈ world.localStore.syncState.rows, row.nextUid < 2 ^ 32

instance (world : World) : Decidable (CountersFit world) :=
  inferInstanceAs (Decidable (∀ row ∈ world.localStore.syncState.rows, _))

instance (run : SessionRun) (folder : FolderInfo) :
    (event : SessionEvent) → Decidable (Predictable run folder event)
  | .status _ => inferInstanceAs (Decidable (_ ∧ _))
  | .command _ | .checkNewMail _ | .store _ => inferInstanceAs (Decidable (_ ∧ _))

/-! ## One event -/

section Events

variable {env : Env} {server : Server} {run : SessionRun} {folderId : String}

theorem advances_sessionStep (event : SessionEvent) :
    Advances folderId run.world (sessionStep env server run event).world := by
  cases event with
  | command command => exact Advances.handleCommand server command run.session run.world
  | status mailbox => exact .refl _
  | checkNewMail read =>
    unfold sessionStep
    dsimp only
    split <;> exact .refl _
  | store op => exact .apply op run.world

theorem nextUid_lt_of_fit (fits : CountersFit world) : world.localStore.nextUid folderId < 2 ^ 32 := by
  unfold LocalStore.nextUid
  cases found : world.localStore.syncState.find? folderId with
  | none => decide
  | some row => exact fits row (Table.mem_of_find? found)

/-- An allocation hands out UIDs from the folder's counter on. -/
theorem allocatedBy_ge {ids : List String}
    (fits : (world.call env (LocalStore.allocateFolderUids folderId ids)).2.localStore.nextUid folderId < 2 ^ 32)
    (handedOut : pair ∈ allocatedBy env folderId ids world) : world.localStore.nextUid pair.1 ≤ pair.2 := by
  unfold allocatedBy at handedOut
  unfold World.call at fits handedOut
  split at handedOut
  · exact absurd handedOut List.not_mem_nil
  next uids allocated =>
    split at allocated
    · cases allocated
    next works =>
      simp only [works] at fits
      rw [LocalStore.nextUid_allocateFolderUids, if_pos rfl] at fits
      cases allocated
      obtain ⟨row, mem, rfl⟩ := List.mem_map.mp handedOut
      exact ((LocalStore.allocateFolderUids_range (Nat.le_of_lt fits)).1 row mem).1

theorem advances_afterAllocation (target : FolderInfo) (mailEid : String) (stored : StoredMail) (world : World) :
    Advances folderId (world.call env (LocalStore.allocateFolderUids target.id [mailEid])).2
      (assignUidAndUpsert env target mailEid stored world) :=
  Advances.write _ fun _ => Nat.le_refl _

/-- After the allocations of a sync the counters only stay. -/
theorem advances_afterListing (folder : FolderInfo) (newMails : List Mail) (world : World) : Advances folderId
      (allocateNew env folder.id (newElementIds (world.store.getFolder folder.id) newMails) world).2
      (persistListing env folder newMails world).2 := by
  have pruned : ∀ (ids : List String) (world : World),
      Advances folderId world (pruneDeleted env folder.id ids world) := by
    intro ids world
    have rows : Advances folderId world (world.call env (LocalStore.deleteMailsNotIn folder.id ids)).2 :=
      Advances.call world fun _ => Nat.le_refl _
    unfold pruneDeleted
    dsimp only
    split
    · exact rows
    · refine rows.trans (Advances.foldl (fun world id => ?_) _ _)
      refine Advances.trans ?_ (Advances.write _ fun _ => Nat.le_refl _)
      exact Advances.write _ fun _ => Nat.le_refl _
  refine Advances.trans ?_ (pruned _ _)
  exact Advances.write _ fun _ => Nat.le_refl _

/-- What an operation allocates starts at the counter of the folder. -/
theorem allocated_ge {op : StoreOp}
    (fits : CountersFit (op.apply env world)) (handedOut : pair ∈ op.allocated env world) :
    world.localStore.nextUid pair.1 ≤ pair.2 := by
  have one : ∀ (target : FolderInfo) (mailEid : String) (stored : StoredMail) (start : World),
      CountersFit (assignUidAndUpsert env target mailEid stored start) →
      pair ∈ allocatedBy env target.id [mailEid] start → start.localStore.nextUid pair.1 ≤ pair.2 :=
    fun target mailEid stored start fits handedOut => allocatedBy_ge
      (Nat.lt_of_le_of_lt (advances_afterAllocation target mailEid stored start)
        (nextUid_lt_of_fit fits)) handedOut
  cases op with
  | clone target mailEid stored => exact one target mailEid stored world fits handedOut
  | load target mailEid mail => exact one target mailEid (newlyStored mail) world fits handedOut
  | create target mailEid pending =>
    have persisted : Advances pair.1 world (match inlineRfc2822 env.rendering pending with
        | none => world
        | some eml => persistInlineBody env mailEid pending.details eml world) := by
      split
      · exact .refl world
      · exact (Advances.writeBody mailEid _ world).trans (Advances.of_same rfl)
    exact Nat.le_trans persisted (one target mailEid _ _ fits handedOut)
  | sync folder =>
    simp only [StoreOp.allocated] at handedOut
    split at handedOut
    · exact absurd handedOut List.not_mem_nil
    next newMails listed =>
      split at handedOut
      · exact absurd handedOut List.not_mem_nil
      next some =>
        have sameDisk : (listFolder env folder world).2.localStore = world.localStore :=
          (retry_stores _ _ _).2
        rw [← sameDisk]
        refine allocatedBy_ge ?_ handedOut
        have synced : (syncFolder env folder world).2.localStore =
            (persistListing env folder newMails (listFolder env folder world).2).2.localStore := by
          simp only [syncFolder, listed, World.mapStore_localStore]
        have afterwards := @advances_afterListing env folder.id folder newMails
          (listFolder env folder world).2
        have allocated : (allocateNew env folder.id (newElementIds
            ((listFolder env folder world).2.store.getFolder folder.id) newMails)
            (listFolder env folder world).2).2.localStore =
            ((listFolder env folder world).2.call env (LocalStore.allocateFolderUids folder.id
              (newElementIds ((listFolder env folder world).2.store.getFolder folder.id)
                newMails))).2.localStore := by
          unfold allocateNew
          rw [if_neg some]
          dsimp only
          split <;> rfl
        have room : (syncFolder env folder world).2.localStore.nextUid folder.id < 2 ^ 32 :=
          nextUid_lt_of_fit fits
        rw [synced] at room
        rw [← allocated]
        exact Nat.lt_of_le_of_lt afterwards room
  | update | entryDelete | mailDelete | refreshFolders | loadCached | backfill | advance | wait =>
    exact absurd handedOut List.not_mem_nil

theorem event_allocated_ge {event : SessionEvent}
    (fits : CountersFit (sessionStep env server run event).world) (handedOut : pair ∈ event.allocated env run.world) :
    run.world.localStore.nextUid pair.1 ≤ pair.2 := by
  cases event with
  | store op => exact allocated_ge fits handedOut
  | command | status | checkNewMail => exact absurd handedOut List.not_mem_nil

/-- What a run allocates starts at the counters the run starts with. -/
theorem allocations_ge {later : List SessionEvent} (fits : Guarded (sessionStep env server)
      (fun run event => CountersFit (sessionStep env server run event).world) run later)
    (handedOut : pair ∈ allocations env server run later) : run.world.localStore.nextUid pair.1 ≤ pair.2 := by
  induction later generalizing run with
  | nil => exact absurd handedOut List.not_mem_nil
  | cons event rest ih =>
    rcases List.mem_append.mp handedOut with now | later
    · exact event_allocated_ge fits.1 now
    · exact Nat.le_trans (@advances_sessionStep env server _ _ event)
        (ih fits.2 later)

/-! ## What is announced -/

/-- A refresh raises the counter of the session just above the UIDs it sees. -/
theorem foldl_uidNext (mails : List StoredMail) (start : Nat) :
    start ≤ mails.foldl (fun next mail => if next ≤ mail.uid then mail.uid + 1 else next) start ∧
      (∀ mail ∈ mails, mail.uid <
        mails.foldl (fun next mail => if next ≤ mail.uid then mail.uid + 1 else next) start) ∧
      ∀ bound, start ≤ bound → (∀ mail ∈ mails, mail.uid < bound) →
        mails.foldl (fun next mail => if next ≤ mail.uid then mail.uid + 1 else next) start ≤ bound := by
  induction mails generalizing start with
  | nil => exact ⟨Nat.le_refl _, fun _ none => absurd none List.not_mem_nil, fun _ below _ => below⟩
  | cons head rest ih =>
    obtain ⟨grows, above, least⟩ :=
      ih (if start ≤ head.uid then head.uid + 1 else start)
    rw [List.foldl_cons]
    have raised : start ≤ (if start ≤ head.uid then head.uid + 1 else start) ∧
        head.uid < (if start ≤ head.uid then head.uid + 1 else start) := by
      split <;> omega
    refine ⟨Nat.le_trans raised.1 grows, ?_, fun bound below all => ?_⟩
    · intro mail mem
      rcases List.mem_cons.mp mem with rfl | inRest
      · exact Nat.lt_of_lt_of_le raised.2 grows
      · exact above mail inRest
    · have headBelow := all head List.mem_cons_self
      refine least bound ?_ fun mail mem => all mail (List.mem_cons_of_mem _ mem)
      split <;> omega

theorem announcedUid_cmdSelect {mailbox : String} {folder : FolderInfo} {uid : Nat}
    {session : ImapSession}
    (known : folderByImapPath world.store mailbox = some folder)
    (announced : announcedUid (session.cmdSelect mailbox world).1 = some uid) :
    uid = (ImapSession.byUid (world.store.getFolder folder.id)).foldl
      (fun next mail => if next ≤ mail.uid then mail.uid + 1 else next) session.uidNext := by
  unfold ImapSession.cmdSelect at announced
  split at announced
  · cases announced
  · simp only [known] at announced
    cases announced
    rfl

/-- The announced UID lies above the mailbox and within its counter exactly when the
counter of the session is right for it. -/
theorem announced_bounds_iff {event : SessionEvent} {folder : FolderInfo} {uid : Nat}
    (announced : announces run event = some (folder, uid)) :
    ((∀ stored ∈ run.world.store.getFolder folder.id, stored.uid < uid) ∧
      uid ≤ run.world.localStore.nextUid folder.id) ↔ Predictable run folder event := by
  unfold announces at announced
  split at announced
  next mailbox =>
    split at announced
    · cases announced
    next =>
      obtain ⟨found, known, shown⟩ := Option.bind_eq_some_iff.mp announced
      obtain ⟨value, announcedThen, same⟩ := Option.map_eq_some_iff.mp shown
      cases same
      have raised := announcedUid_cmdSelect known announcedThen
      obtain ⟨grows, above, least⟩ :=
        foldl_uidNext (ImapSession.byUid (run.world.store.getFolder folder.id)) run.session.uidNext
      rw [← raised] at grows above least
      have sorted : ∀ stored, stored ∈ ImapSession.byUid (run.world.store.getFolder folder.id) ↔
          stored ∈ run.world.store.getFolder folder.id :=
        fun stored => List.mem_insertionSort _
      constructor
      · rintro ⟨aboveAll, within⟩
        exact ⟨fun stored mem => Nat.lt_of_lt_of_le (aboveAll stored mem) within, Nat.le_trans grows within⟩
      · rintro ⟨allBelow, counter⟩
        exact ⟨fun stored mem => above stored ((sorted stored).mpr mem),
          least _ counter fun stored mem => allBelow stored ((sorted stored).mp mem)⟩
  next mailbox =>
    split at announced
    · cases announced
    next =>
      obtain ⟨found, known, shown⟩ := Option.bind_eq_some_iff.mp announced
      obtain ⟨reply, answered, same⟩ := Option.map_eq_some_iff.mp shown
      cases same
      unfold cmdStatus at answered
      split at answered
      · cases answered
      · cases answered
        exact Iff.rfl
  · cases announced

/-- An event that announces a UID leaves the stores as they were. -/
theorem world_of_announces {event : SessionEvent} {report : FolderInfo × Nat}
    (announced : announces run event = some report) : (sessionStep env server run event).world = run.world := by
  unfold announces at announced
  split at announced
  next mailbox =>
    split at announced
    · cases announced
    next active =>
      unfold sessionStep
      dsimp only
      rw [ImapSession.handleCommand.eq_def, if_neg active]
  next => rfl
  · cases announced

/-- A disk that works hands out the counter of the folder next. -/
theorem mem_allocatedBy (works : env.diskFault world.tick = none)
    (room : world.localStore.nextUid folderId + 1 < 2 ^ 32) (elementId : String) :
    (folderId, world.localStore.nextUid folderId) ∈ allocatedBy env folderId [elementId] world := by
  have stamped : (world.localStore.allocateFolderUids folderId [elementId]).1.get? elementId =
      some (world.localStore.nextUid folderId) := by
    simp only [LocalStore.allocateFolderUids, LocalStore.assignUids, Dict.get?_set, if_pos]
    rw [Nat.mod_eq_of_lt (Nat.lt_of_succ_lt room)]
  obtain ⟨row, found, isUid⟩ := Option.map_eq_some_iff.mp stamped
  simp only [allocatedBy, World.call, works]
  exact List.mem_map.mpr ⟨row, Table.mem_of_find? found, by rw [← isUid]⟩

/-- One more UID fits when there is room for it. -/
theorem countersFit_load {target : FolderInfo} (mailEid : String)
    (stored : StoredMail) (fits : CountersFit world) (room : world.localStore.nextUid target.id + 1 < 2 ^ 32) :
    CountersFit (assignUidAndUpsert env target mailEid stored world) := by
  have allocated : CountersFit (world.call env (LocalStore.allocateFolderUids target.id [mailEid])).2 := by
    unfold World.call
    split
    · exact fits
    · intro row mem
      have found := Table.find?_of_mem mem
      simp only [LocalStore.allocateFolderUids, Table.find?_upsert] at found
      split at found
      next =>
        rw [← Option.some.inj found]
        cases world.localStore.syncState.find? row.folderId <;> exact room
      next => exact fits row (Table.mem_of_find? found)
  unfold assignUidAndUpsert
  dsimp only
  refine @World.call_localStore_rel env
    (fun before after => (∀ row ∈ before.syncState.rows, row.nextUid < 2 ^ 32) →
      ∀ row ∈ after.syncState.rows, row.nextUid < 2 ^ 32) (fun _ => id) _ _ (fun _ => id) _ allocated

end Events

/-- In every run in which the session's counter is right for each mailbox whose next UID is
announced, and the counters stay within 32 bits, the announced UIDs are valid predictions. An
announced UID that stays valid however the run goes on, on a disk that works and with room
for one more UID, was announced with a right counter. -/
theorem uidNext_predicts (env : Env) (server : Server) : (∀ run events,
      Guarded (sessionStep env server) (fun run event =>
        (∀ announced ∈ announces run event, Predictable run announced.1 event) ∧
          CountersFit (sessionStep env server run event).world) run events →
      PredictionsHold env server run events) ∧
    ∀ run event folder uid, announces run event = some (folder, uid) →
      env.diskFault run.world.tick = none → run.world.localStore.nextUid folder.id + 1 < 2 ^ 32 →
      CountersFit run.world → (∀ later, Guarded (sessionStep env server) (fun run event =>
          CountersFit (sessionStep env server run event).world) (sessionStep env server run event) later →
        PredictionsHold env server run (event :: later)) →
      Predictable run folder event := by
  constructor
  · intro run events
    induction events generalizing run with
    | nil => exact fun _ => trivial
    | cons event rest ih =>
      rintro ⟨⟨predictable, _⟩, guarded⟩
      refine ⟨fun announced isAnnounced => ?_, ih _ guarded⟩
      obtain ⟨above, within⟩ :=
        (announced_bounds_iff isAnnounced).mpr (predictable announced isAnnounced)
      refine ⟨above, fun pair allocated sameFolder => ?_⟩
      have fits := guarded.mono fun _ _ allowed => allowed.2
      have fresh := allocations_ge fits allocated
      rw [world_of_announces isAnnounced, sameFolder] at fresh
      exact Nat.le_trans within fresh
  · intro run event folder uid announced works room fits always
    refine (announced_bounds_iff announced).mp ?_
    have sameWorld := @world_of_announces env server run event _ announced
    -- The mailbox gets one more mail.
    have holds := always [.store (.load folder "next" ⟨none, "", ⟨"", ""⟩, 0, true, [], none, none, none⟩)] ?_
    · obtain ⟨above, later⟩ := holds.1 (folder, uid) announced
      refine ⟨above, later (folder.id, run.world.localStore.nextUid folder.id) ?_ rfl⟩
      refine List.mem_append_left _ ?_
      rw [sameWorld]
      exact mem_allocatedBy works room "next"
    · refine ⟨?_, trivial⟩
      show CountersFit (StoreOp.apply env (sessionStep env server run event).world _)
      rw [sameWorld]
      exact countersFit_load _ _ fits room

/-! ## Two mailboxes -/

def inboxFolder : FolderInfo := sampleFolder "inbox" "inboxEntries"

def workFolder : FolderInfo := sampleFolder "work" "workEntries"

/-- A client has logged in. The inbox has two mails, and the other folder one. -/
def twoMailboxes : SessionRun where
  session := { sampleSession inboxFolder [] with state := .authenticated, selectedFolder := none }
  world := sampleWorld [inboxFolder, workFolder]
    [("inbox", [sampleStored "a" 1, sampleStored "b" 2]), ("work", [sampleStored "c" 1])]

/-- Tuta does everything that it is asked for. -/
def obeyingServer : Server := fun _ _ => .ok ()

/-- The smaller mailbox is selected, and gets a mail. -/
theorem uidNext_predicts_smaller : PredictionsHold (quietEnv (offlineBackend [])) obeyingServer twoMailboxes
      [.command (.select "work"), .store (.load workFolder "d" (sampleMail "d"))] ∧
    Predictable twoMailboxes workFolder (.command (.select "work")) := by
  refine ⟨(uidNext_predicts _ _).1 _ _ ?_, ?_⟩
  · decide +kernel
  · decide +kernel

/-- The larger mailbox is selected before the smaller one, and its next UID is announced for
the smaller one. Without a selection the first UID is announced, which is taken. -/
theorem uidNext_of_other_mailbox : ¬ PredictionsHold (quietEnv (offlineBackend [])) obeyingServer twoMailboxes
      [.command (.select "inbox"), .command (.select "work"),
        .store (.load workFolder "d" (sampleMail "d"))] ∧
    ¬ PredictionsHold (quietEnv (offlineBackend [])) obeyingServer twoMailboxes [.status "work"] := by
  constructor <;> decide +kernel

end TutaBridge.Runs
