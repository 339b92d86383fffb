import TutaBridge.Events.Cursor
import TutaBridge.Runs.SyncerMoves
import TutaBridge.Std.Feed

/-!
# The first launch

The syncer lists the folders, the event bus connects, and mail arrives, in any
order. The server keeps a log of batches and pushes to a connected client what is
behind its cursor, or what is published from the connection on when the client
sends none. The handler takes what was pushed once the syncer is done. Nothing
orders the listing of a folder after the connection, so mail that arrives between
the two is neither listed nor pushed.
-/

namespace TutaBridge.Runs

open TutaBridge.Std Tuta Store Bridge Sync
open Events

variable {folder : FolderInfo}

/-! ## The system -/

/-- The mail an entry event places. -/
def placedMail (ev : EntityUpdateEvent) : Option String :=
  (MailSetEntryId.deconstruct ev.instanceId).toOption.map Prod.snd

/-- A batch with new mail: the entries lists and mails that arrive with it. Its
other events are none the bridge acts on. -/
structure Announcement (backend : MailBackend) (group : String) where
  batch : EntityUpdateBatch
  arrivals : List (String × Mail)
  inGroup : batch.groupId = group
  announced : ∀ arrival ∈ arrivals, ∃ ev ∈ batch.updates, isEntryCreate ev ∧
    ev.instanceListId = arrival.1 ∧ ∃ mailEid, placedMail ev = some mailEid ∧
      arrival.2.elementId = some mailEid
  onlyNewMail : ∀ ev ∈ batch.updates, ¬ isEntryDelete ev ∧ ¬ isMailEvent ev ∧ ¬ isMailSetEvent ev
  faithful : ∀ ev ∈ batch.updates, FaithfulEvent backend ev

/-- A batch in the server's log. `late` are the arrivals in folders that had been
listed when it was published. -/
structure Published (backend : MailBackend) (group : String) where
  announcement : Announcement backend group
  late : List (String × Mail)

/-- The bridge with the server's log and its connection to it. `position` is the
next batch the server pushes, or would have pushed when the connection ended;
`synced` says that the full sync ended without an error. -/
structure Bootstrap (backend : MailBackend) (group : String) where
  startup : Startup
  log : List (Published backend group)
  position : Nat
  connected : Bool
  synced : Bool

/-- Who moves. A connection attempt may fail, which changes nothing. -/
inductive BootLabel (backend : MailBackend) (group : String) where
  | syncer
  | publish (announcement : Announcement backend group)
  | connect
  | connectFails
  | push
  | disconnect
  | handler

section System

variable (env : Env) (group : String) (initial : String → List Mail)

/-- The mails of a folder on the server: those it started with and those that
arrived. -/
def folderMails (log : List (Published env.backend group)) (entriesListId : String) : List Mail :=
  initial entriesListId ++ (log.flatMap fun entry => entry.announcement.arrivals).filterMap
    fun arrival => if arrival.1 = entriesListId then some arrival.2 else none

/-- The bridge at a moment of the server: a listing that succeeds has the mails the
folder has then. -/
def envAt (log : List (Published env.backend group)) : Env :=
  { env with
    backend :=
      { env.backend with
        loadMailIdsForFolder := fun tick folder =>
          (env.backend.loadMailIdsForFolder tick folder).map
            fun _ => folderMails env group initial log folder.entriesListId } }

/-- The arrivals in a folder that is known and was listed. -/
def lateArrivals (startup : Startup) (arrivals : List (String × Mail)) : List (String × Mail) :=
  arrivals.filter fun arrival => startup.world.store.folderList.any fun folder =>
    folder.entriesListId = arrival.1 && !startup.syncer.awaits folder

/-- Where the server starts to push: behind the cursor the client sends, or at the
end of the log. -/
def resumeAt (log : List (Published env.backend group)) : Option String → Nat
  | none => log.length
  | some batchId => log.findIdx (fun entry => entry.announcement.batch.batchId = batchId) + 1

def bootStep (state : Bootstrap env.backend group) :
    BootLabel env.backend group → Option (Bootstrap env.backend group)
  | .syncer =>
    (syncerStep (envAt env group initial state.log) state.startup).map fun next =>
      { state with
        startup := next
        synced := state.synced || state.startup.syncer.completes }
  | .publish announcement =>
    -- A batch id is used once.
    if state.log.any fun entry =>
        entry.announcement.batch.batchId = announcement.batch.batchId then none
    else
      some { state with
        log := state.log ++ [⟨announcement, lateArrivals state.startup announcement.arrivals⟩] }
  | .connect =>
    if state.connected then none
    else
      some { state with
        connected := true
        position := resumeAt env group state.log (state.startup.world.lastBatchIds.get? group) }
  | .connectFails => if state.connected then none else some state
  | .push =>
    match state.connected, state.log[state.position]? with
    | true, some entry =>
      some { state with
        position := state.position + 1
        startup :=
          { state.startup with
            queue := state.startup.queue ++ [.entityUpdate entry.announcement.batch] } }
    | _, _ => none
  | .disconnect => some { state with connected := false }
  | .handler =>
    match state.startup.startupDone, state.startup.queue with
    | true, msg :: rest =>
      some { state with
        startup :=
          { state.startup with
            world := process (envAt env group initial state.log) state.startup.world msg
            queue := rest } }
    | _, _ => none

/-- The bridge as its tasks are spawned, without a cursor. -/
def Bootstrap.start (localStore : LocalStore) (tick : Nat) : Bootstrap env.backend group where
  startup := .initial ⟨MailStore.new, localStore, .empty, tick⟩
  log := []
  position := 0
  connected := false
  synced := false

/-- The bus connects without a cursor only when no batch it was not pushed has mail
for a folder that was listed before; a batch is handled only when it can be
applied. -/
def Timely (state : Bootstrap env.backend group) : BootLabel env.backend group → Prop
  | .connect => state.startup.world.lastBatchIds.get? group = none →
      ∀ entry ∈ state.log.drop state.position, entry.late = []
  | .handler => ∀ msg ∈ state.startup.queue.head?,
      CanApply (envAt env group initial state.log) placedMail state.startup.world msg
  | _ => True

end System

/-! ## What the handler does with new mail -/

section NewMail

variable {env : Env} {batch : EntityUpdateBatch} {world : World}

section

variable (faithfulEvents : ∀ ev ∈ batch.updates, FaithfulEvent env.backend ev)
    (onlyNewMail : ∀ ev ∈ batch.updates, ¬ isEntryDelete ev ∧ ¬ isMailEvent ev ∧ ¬ isMailSetEvent ev)

include faithfulEvents onlyNewMail

theorem store_beginBatch :
    (beginBatch env (bucketUpdates batch.updates) world).world.store = world.store := by
  have clean : batch.updates.any isMailSetEvent = false := by
    rw [List.any_eq_false]
    exact fun ev mem => (onlyNewMail ev mem).2.2
  simp only [beginBatch, bucketUpdates_eq, clean]
  exact (predecryptMailCreates_facts (fun ev mem => faithfulEvents ev (List.mem_of_mem_filter mem)) _).2.1

theorem folderList_process :
    (process env world (.entityUpdate batch)).store.folderList = world.store.folderList := by
  rw [process, (advanceCursor_facts env batch _).1, folderList_applyBatch, batchFolders,
    store_beginBatch faithfulEvents onlyNewMail]

end

section

variable (faithful : Faithful env.backend)
    (faithfulEvents : ∀ ev ∈ batch.updates, FaithfulEvent env.backend ev)
    (onlyNewMail : ∀ ev ∈ batch.updates, ¬ isEntryDelete ev ∧ ¬ isMailEvent ev ∧ ¬ isMailSetEvent ev)

include faithful faithfulEvents onlyNewMail

/-- A batch of new mail takes no mail that the server still lists. -/
theorem holds_process (ids : (world.store.folderList.map FolderInfo.id).Nodup) {id : String}
    (known : folder ∈ world.store.folderList)
    (answers : ∀ tick newMails, env.backend.loadMailIdsForFolder tick folder = .ok newMails →
      id ∈ newMails.filterMap Mail.elementId)
    (held : world.store.Holds folder.id id) : (process env world (.entityUpdate batch)).store.Holds folder.id id := by
  have same := @store_beginBatch env batch world faithfulEvents onlyNewMail
  rw [process, (advanceCursor_facts env batch _).1]
  refine (members_applyBatch faithful faithfulEvents world (folder.id, id)).mpr ?_
  split
  next mails last =>
    obtain ⟨before, entriesListId, listed⟩ := lastAnswer_eq_some_imp last
    obtain ⟨synced, found, answer⟩ := Option.bind_eq_some_iff.mp listed
    rw [batchFolders, same] at found
    have mem : synced ∈ world.store.folderList :=
      List.mem_of_mem_filter (List.mem_of_getLast? found)
    split at answer
    next sameId =>
      obtain rfl := List.inj_on_of_nodup_map ids mem known sameId
      cases result : (listFolder env synced before).1 with
      | error message => simp [result, Except.toOption] at answer
      | ok newMails =>
        simp only [result, Except.toOption, Option.some.injEq] at answer
        obtain ⟨tick, answered⟩ := retry_eq_ok_imp result
        exact answers tick mails (answer ▸ answered)
    next => cases answer
  next =>
    have noDeletes : (bucketUpdates batch.updates).mailSetEntryDeletes = [] := by
      rw [bucketUpdates_eq, List.filter_eq_nil_iff]
      exact fun ev mem => (onlyNewMail ev mem).1
    have noMailEvents : (bucketUpdates batch.updates).mailEvents = [] := by
      rw [bucketUpdates_eq, List.filter_eq_nil_iff]
      exact fun ev mem => (onlyNewMail ev mem).2.1
    unfold KeptByEvents
    dsimp only
    rw [noDeletes, noMailEvents]
    refine ⟨.inl ?_, fun _ inNone => absurd inNone List.not_mem_nil, trivial⟩
    rw [members, same]
    exact held

/-- A batch that can be applied leaves its mails in their folders. -/
theorem holds_of_canApply (canApply : CanApply env placedMail world (.entityUpdate batch))
    (entries : (world.store.folderList.map FolderInfo.entriesListId).Nodup)
    (known : folder ∈ world.store.folderList) {ev : EntityUpdateEvent}
    (inBatch : ev ∈ batch.updates) (creates : isEntryCreate ev)
    (inFolder : ev.instanceListId = folder.entriesListId) {id : String} (places : placedMail ev = some id) :
    (process env world (.entityUpdate batch)).store.Holds folder.id id := by
  obtain ⟨target, found, held⟩ := (delivered_process_iff faithful faithfulEvents placedMail world).mpr
    canApply ev inBatch creates id places
  rw [folderList_process faithfulEvents onlyNewMail] at found
  have mem := List.mem_of_getLast? found
  rw [List.mem_filter, decide_eq_true_eq] at mem
  obtain rfl := List.inj_on_of_nodup_map entries mem.1 known (mem.2.trans inFolder)
  exact held

end

end NewMail

/-! ## The invariant -/

section Invariant

variable {env : Env} {group : String} {initial : String → List Mail}

/-- A mail the folder had from the start, or that arrived before its listing. -/
def Early (initial : String → List Mail) (log : List (Published env.backend group))
    (folder : FolderInfo) (mail : Mail) : Prop :=
  mail ∈ initial folder.entriesListId ∨ ∃ entry ∈ log,
    (folder.entriesListId, mail) ∈ entry.announcement.arrivals ∧ (folder.entriesListId, mail) ∉ entry.late

/-- The late arrivals of a batch are in their folders, and the handler is through
its gate. -/
def Applied (state : Bootstrap env.backend group) (index : Nat) : Prop :=
  ∃ entry, state.log[index]? = some entry ∧ ∀ arrival ∈ entry.late,
    ∀ folder ∈ state.startup.world.store.folderList, folder.entriesListId = arrival.1 →
      ∀ id, arrival.2.elementId = some id →
        state.startup.startupDone = true ∧ state.startup.world.store.Holds folder.id id

/-- The connection, the channel and the cursor as a subscription to the log. -/
structure Tracks (state : Bootstrap env.backend group) (feed : Feed) : Prop where
  length : feed.length = state.log.length
  position : feed.position = state.position
  queue : List.Forall₂ (fun msg index => ∃ entry, state.log[index]? = some entry ∧
    msg = .entityUpdate entry.announcement.batch) state.startup.queue feed.queue
  noCursor : feed.cursor = none → state.startup.world.lastBatchIds.get? group = none
  cursor : ∀ index ∈ feed.cursor, ∃ entry, state.log[index]? = some entry ∧
    state.startup.world.lastBatchIds.get? group = some entry.announcement.batch.batchId

structure BootInvariant (initial : String → List Mail) (state : Bootstrap env.backend group) :
    Prop where
  knows : KnowsFolders state.startup.syncer state.startup.world.store
  notShutdown : state.startup.shutdown = false
  gate : state.startup.startupDone = true → ∃ folders, state.startup.syncer = .running folders
  synced : state.synced = true →
    state.startup.syncer.signals = true ∨ ∃ folders, state.startup.syncer = .running folders
  early : state.synced = true ∨ state.startup.syncer.succeeding = true →
    ∀ folder ∈ state.startup.world.store.folderList, ∀ mail id, Early initial state.log folder mail →
      mail.elementId = some id → ListedOrHeld state.startup.syncer state.startup.world.store folder id
  unlisted : state.startup.syncer = .listingFolders → ∀ entry ∈ state.log, entry.late = []
  late : ∀ entry ∈ state.log, ∀ arrival ∈ entry.late, arrival ∈ entry.announcement.arrivals
  fresh : (state.log.map fun entry => entry.announcement.batch.batchId).Nodup
  feed : ∃ feed, Tracks state feed ∧ feed.Gapless (Applied state)

theorem mem_folderMails_iff {log : List (Published env.backend group)} {entriesListId : String}
    {mail : Mail} : mail ∈ folderMails env group initial log entriesListId ↔ mail ∈ initial entriesListId ∨
        ∃ entry ∈ log, (entriesListId, mail) ∈ entry.announcement.arrivals := by
  simp only [folderMails, List.mem_append, List.mem_filterMap, List.mem_flatMap]
  refine or_congr Iff.rfl ⟨?_, ?_⟩
  · rintro ⟨⟨listId, arrived⟩, ⟨entry, mem, inBatch⟩, isMail⟩
    split at isMail
    next same =>
      cases isMail
      cases same
      exact ⟨entry, mem, inBatch⟩
    next => cases isMail
  · rintro ⟨entry, mem, inBatch⟩
    exact ⟨_, ⟨entry, mem, inBatch⟩, if_pos rfl⟩

/-- A listing has every mail of its folder. -/
theorem listing_answers {log : List (Published env.backend group)} {mail : Mail}
    {id : String} (onServer : mail ∈ folderMails env group initial log folder.entriesListId)
    (identified : mail.elementId = some id) (tick : Nat) (newMails : List Mail)
    (answered : (envAt env group initial log).backend.loadMailIdsForFolder tick folder =
      .ok newMails) : id ∈ newMails.filterMap Mail.elementId := by
  simp only [envAt] at answered
  cases result : env.backend.loadMailIdsForFolder tick folder with
  | error message =>
    rw [result] at answered
    cases answered
  | ok =>
    rw [result] at answered
    cases answered
    exact List.mem_filterMap.mpr ⟨mail, onServer, identified⟩

theorem faithful_envAt (faithful : Faithful env.backend)
    (identified : ∀ entriesListId, ∀ mail ∈ initial entriesListId, mail.elementId.isSome)
    (log : List (Published env.backend group)) :
    Faithful (envAt env group initial log).backend where
  loaded := faithful.loaded
  listed tick folder mails answered mail mem := by
    simp only [envAt] at answered
    cases result : env.backend.loadMailIdsForFolder tick folder with
    | error message =>
      rw [result] at answered
      cases answered
    | ok =>
      rw [result] at answered
      cases answered
      rcases mem_folderMails_iff.mp mem with fromStart | ⟨entry, _, arrived⟩
      · exact identified _ mail fromStart
      · obtain ⟨_, _, _, _, id, _, isId⟩ := entry.announcement.announced _ arrived
        rw [isId]
        rfl

/-- The events of an announcement are as faithful at any moment. -/
theorem faithfulEvents_envAt (log : List (Published env.backend group))
    (announcement : Announcement env.backend group) : ∀ ev ∈ announcement.batch.updates,
      FaithfulEvent (envAt env group initial log).backend ev :=
  fun ev mem =>
    ⟨(announcement.faithful ev mem).mail, (announcement.faithful ev mem).entry⟩

theorem onServer_of_early {log : List (Published env.backend group)}
    {mail : Mail} (early : Early initial log folder mail) :
    mail ∈ folderMails env group initial log folder.entriesListId := by
  rcases early with fromStart | ⟨entry, mem, arrived, _⟩
  · exact mem_folderMails_iff.mpr (.inl fromStart)
  · exact mem_folderMails_iff.mpr (.inr ⟨entry, mem, arrived⟩)

theorem bootInvariant_start (localStore : LocalStore) (tick : Nat) :
    BootInvariant initial (Bootstrap.start env group localStore tick) where
  knows := .of_list (fun _ isList => by cases isList) rfl rfl List.nodup_nil List.nodup_nil
  notShutdown := rfl
  gate signalled := by cases signalled
  synced isSynced := by cases isSynced
  early _ folder known := by cases known
  unlisted _ entry mem := by cases mem
  late entry mem := by cases mem
  fresh := List.nodup_nil
  feed := ⟨⟨0, 0, [], none⟩, ⟨rfl, rfl, .nil, fun _ => rfl, nofun⟩,
    ⟨fun entry before => absurd before (Nat.not_lt_zero entry), nofun, nofun⟩⟩

end Invariant

/-! ## The steps -/

section Preserved

variable {env : Env} {group : String} {initial : String → List Mail}
  {state : Bootstrap env.backend group}

theorem bootInvariant_syncer (lists : ListsFolders env.backend)
    (holds : BootInvariant initial state) {next : Startup}
    (stepped : syncerStep (envAt env group initial state.log) state.startup = some next) :
    BootInvariant initial { state with
      startup := next, synced := state.synced || state.startup.syncer.completes } := by
  obtain ⟨move, sameCursor, signal⟩ := syncerMove holds.notShutdown stepped
  obtain ⟨_, sameQueue, _, sameShutdown, _, _⟩ := syncerStep_frame stepped
  have listsNow : ListsFolders (envAt env group initial state.log).backend := lists
  -- Once the handler is through its gate the syncer has no piece left.
  have notDone : state.startup.startupDone = false := by
    by_contra done
    obtain ⟨folders, running⟩ := holds.gate (by simpa using done)
    exact not_move_running (running ▸ move)
  have signalling : state.synced = true → state.startup.syncer.signals = true := by
    intro isSynced
    rcases holds.synced isSynced with signals | ⟨folders, running⟩
    · exact signals
    · exact absurd (running ▸ move) not_move_running
  refine ⟨knowsFolders_move listsNow move holds.knows, sameShutdown.trans holds.notShutdown, ?_, ?_,
    ?_, fun isListing => absurd isListing (move_ne_listingFolders move), holds.late, holds.fresh, ?_⟩
  · intro done
    rw [signal, notDone, Bool.false_or] at done
    exact running_of_signals move done
  · intro isSynced
    rw [Bool.or_eq_true] at isSynced
    rcases isSynced with earlier | completes
    · exact .inr (running_of_signals move (signalling earlier))
    · exact .inl (signals_of_completes move completes)
  · intro sound folder known mail id early isId
    dsimp only at sound
    rw [Bool.or_eq_true] at sound
    have before : ListedOrHeld state.startup.syncer state.startup.world.store folder id := by
      rcases folderList_move move with isListing | sameList
      · rw [isListing]
        exact .inl rfl
      · refine holds.early ?_ folder (sameList ▸ known) mail id early isId
        rcases sound with (earlier | completes) | succeeds
        · exact .inl earlier
        · exact .inr (succeeding_of_move move (.inr completes))
        · exact .inr (succeeding_of_move move (.inl succeeds))
    refine listedOrHeld_move holds.knows move ?_ known (listing_answers (onServer_of_early early) isId) before
    rcases sound with (earlier | completes) | succeeds
    · exact .inr (.inr (signalling earlier))
    · exact .inr (.inl completes)
    · exact .inl succeeds
  · obtain ⟨feed, tracks, gapless⟩ := holds.feed
    refine ⟨feed, ⟨tracks.length, tracks.position, ?_, ?_, ?_⟩, gapless.mono ?_⟩
    · dsimp only
      rw [sameQueue]
      exact tracks.queue
    · dsimp only
      rw [sameCursor]
      exact tracks.noCursor
    · dsimp only
      rw [sameCursor]
      exact tracks.cursor
    · rintro index ⟨entry, found, applied⟩
      refine ⟨entry, found, fun arrival isLate folder known inFolder id isId => ?_⟩
      rcases folderList_move move with isListing | sameList
      · have noLate := holds.unlisted isListing entry (List.mem_of_getElem? found)
        rw [noLate] at isLate
        cases isLate
      · have done := (applied arrival isLate folder (sameList ▸ known) inFolder id isId).1
        rw [notDone] at done
        cases done

theorem mem_lateArrivals {startup : Startup} {arrivals : List (String × Mail)}
    {arrival : String × Mail} : arrival ∈ lateArrivals startup arrivals ↔
      arrival ∈ arrivals ∧ ∃ folder ∈ startup.world.store.folderList,
        folder.entriesListId = arrival.1 ∧ startup.syncer.awaits folder = false := by
  simp [lateArrivals]

theorem bootInvariant_publish (holds : BootInvariant initial state)
    {announcement : Announcement env.backend group}
    (isNew : ¬ state.log.any fun entry =>
      entry.announcement.batch.batchId = announcement.batch.batchId) :
    BootInvariant initial { state with
      log := state.log ++ [⟨announcement, lateArrivals state.startup announcement.arrivals⟩] } := by
  let entry : Published env.backend group :=
    ⟨announcement, lateArrivals state.startup announcement.arrivals⟩
  have stays : ∀ {index : Nat} {old : Published env.backend group}, state.log[index]? = some old →
      (state.log ++ [entry])[index]? = some old := by
    intro index old found
    rw [List.getElem?_append_left (List.getElem?_eq_some_iff.mp found).1, found]
  refine ⟨holds.knows, holds.notShutdown, holds.gate, holds.synced, ?_, ?_, ?_, ?_, ?_⟩
  · intro sound folder known mail id early isId
    by_cases awaited : state.startup.syncer.awaits folder = true
    · exact .inl awaited
    · refine holds.early sound folder known mail id ?_ isId
      rcases early with fromStart | ⟨other, mem, arrived, notLate⟩
      · exact .inl fromStart
      · rcases List.mem_append.mp mem with old | isEntry
        · exact .inr ⟨other, old, arrived, notLate⟩
        · obtain rfl := List.mem_singleton.mp isEntry
          refine absurd (mem_lateArrivals.mpr ⟨arrived, folder, known, rfl, ?_⟩) notLate
          simpa using awaited
  · intro isListing other mem
    rcases List.mem_append.mp mem with old | isEntry
    · exact holds.unlisted isListing other old
    · obtain rfl := List.mem_singleton.mp isEntry
      refine List.eq_nil_iff_forall_not_mem.mpr fun arrival isLate => ?_
      obtain ⟨_, folder, _, _, notAwaited⟩ := mem_lateArrivals.mp isLate
      dsimp only at isListing
      rw [isListing] at notAwaited
      cases notAwaited
  · intro other mem arrival isLate
    rcases List.mem_append.mp mem with old | isEntry
    · exact holds.late other old arrival isLate
    · obtain rfl := List.mem_singleton.mp isEntry
      exact (mem_lateArrivals.mp isLate).1
  · rw [List.map_append, List.nodup_append]
    refine ⟨holds.fresh, List.nodup_singleton _, ?_⟩
    intro old mem other isOther
    obtain rfl := List.mem_singleton.mp isOther
    obtain ⟨source, inLog, rfl⟩ := List.mem_map.mp mem
    intro same
    exact isNew (List.any_eq_true.mpr ⟨source, inLog, by simpa using same⟩)
  · obtain ⟨feed, tracks, gapless⟩ := holds.feed
    refine ⟨feed.publish, ⟨?_, tracks.position, tracks.queue.imp ?_, tracks.noCursor, ?_⟩,
      (gapless.mono ?_).publish⟩
    · simp [Feed.publish, tracks.length]
    · rintro msg index ⟨old, found, isMessage⟩
      exact ⟨old, stays found, isMessage⟩
    · intro index isCursor
      obtain ⟨old, found, stored⟩ := tracks.cursor index isCursor
      exact ⟨old, stays found, stored⟩
    · rintro index ⟨old, found, applied⟩
      exact ⟨old, stays found, applied⟩

/-- The server finds the batch of a cursor where it published it. -/
theorem findIdx_of_fresh {log : List (Published env.backend group)} {index : Nat}
    {entry : Published env.backend group}
    (fresh : (log.map fun entry => entry.announcement.batch.batchId).Nodup) (found : log[index]? = some entry) :
    log.findIdx (fun other => other.announcement.batch.batchId = entry.announcement.batch.batchId) = index := by
  obtain ⟨inRange, isEntry⟩ := List.getElem?_eq_some_iff.mp found
  rw [List.findIdx_eq inRange]
  refine ⟨by simp [isEntry], fun earlier before => ?_⟩
  rw [decide_eq_false_iff_not]
  intro same
  have different := List.nodup_iff_getElem?_ne_getElem?.mp fresh earlier index before (by simpa using inRange)
  rw [List.getElem?_map, List.getElem?_map, found,
    List.getElem?_eq_getElem (before.trans inRange)] at different
  exact different (congrArg some same)

theorem bootInvariant_connect (holds : BootInvariant initial state)
    (timely : Timely env group initial state .connect) :
    BootInvariant initial { state with
      connected := true
      position := resumeAt env group state.log (state.startup.world.lastBatchIds.get? group) } := by
  obtain ⟨feed, tracks, gapless⟩ := holds.feed
  refine { holds with
    feed := ⟨feed.connect, ⟨tracks.length, ?_, tracks.queue, tracks.noCursor, tracks.cursor⟩,
      gapless.connect ?_⟩ }
  · cases isCursor : feed.cursor with
    | none => simp [Feed.connect, isCursor, tracks.noCursor isCursor, resumeAt, tracks.length]
    | some index =>
      obtain ⟨entry, found, stored⟩ := tracks.cursor index isCursor
      simp [Feed.connect, isCursor, stored, resumeAt, findIdx_of_fresh holds.fresh found]
  · intro isNone index notPushed inLog
    rw [tracks.length] at inLog
    rw [tracks.position] at notPushed
    obtain ⟨entry, found⟩ : ∃ entry, state.log[index]? = some entry :=
      ⟨_, List.getElem?_eq_getElem inLog⟩
    have skipped : entry ∈ state.log.drop state.position := by
      refine List.mem_of_getElem? (i := index - state.position) ?_
      rw [List.getElem?_drop, Nat.add_sub_cancel' notPushed, found]
    have noLate := timely (tracks.noCursor isNone) entry skipped
    refine ⟨entry, found, fun arrival isLate => ?_⟩
    rw [noLate] at isLate
    cases isLate

theorem bootInvariant_push (holds : BootInvariant initial state)
    {entry : Published env.backend group} (found : state.log[state.position]? = some entry) :
    BootInvariant initial { state with
      position := state.position + 1
      startup := { state.startup with
        queue := state.startup.queue ++ [.entityUpdate entry.announcement.batch] } } := by
  obtain ⟨feed, tracks, gapless⟩ := holds.feed
  refine { holds with
    feed := ⟨feed.push, ⟨tracks.length, ?_, ?_, tracks.noCursor, tracks.cursor⟩, gapless.push⟩ }
  · simp [Feed.push, tracks.position]
  · refine List.rel_append tracks.queue (.cons ⟨entry, ?_, rfl⟩ .nil)
    rw [tracks.position]
    exact found

theorem bootInvariant_handler (faithful : Faithful env.backend)
    (identified : ∀ entriesListId, ∀ mail ∈ initial entriesListId, mail.elementId.isSome)
    (holds : BootInvariant initial state) (done : state.startup.startupDone = true)
    {msg : EventBusMessage} {rest : List EventBusMessage}
    (head : state.startup.queue = msg :: rest)
    (canApply : CanApply (envAt env group initial state.log) placedMail state.startup.world msg) :
    BootInvariant initial { state with
      startup := { state.startup with
        world := process (envAt env group initial state.log) state.startup.world msg
        queue := rest } } := by
  obtain ⟨feed, tracks, gapless⟩ := holds.feed
  have queue := tracks.queue
  rw [head] at queue
  obtain ⟨length, position, indices, cursor⟩ := feed
  obtain _ | ⟨⟨entry, found, rfl⟩, later⟩ := queue
  rename_i index indices
  have faithfulNow := faithful_envAt faithful identified state.log
  have events := @faithfulEvents_envAt env group initial state.log entry.announcement
  have newMail := entry.announcement.onlyNewMail
  have sameList := @folderList_process _ _ state.startup.world events newMail
  obtain ⟨folders, running⟩ := holds.gate done
  have kept : ∀ folder ∈ state.startup.world.store.folderList, ∀ mail id,
      mail ∈ folderMails env group initial state.log folder.entriesListId →
      mail.elementId = some id → state.startup.world.store.Holds folder.id id →
      (process (envAt env group initial state.log) state.startup.world
        (.entityUpdate entry.announcement.batch)).store.Holds folder.id id :=
    fun folder known mail id onServer isId => holds_process faithfulNow events newMail
      holds.knows.ids known (listing_answers onServer isId)
  have grows : ∀ other, Applied state other → Applied { state with
      startup := { state.startup with
        world := process (envAt env group initial state.log) state.startup.world
          (.entityUpdate entry.announcement.batch)
        queue := rest } } other := by
    rintro other ⟨old, atOther, applied⟩
    refine ⟨old, atOther, fun arrival isLate folder known inFolder id isId => ⟨done, ?_⟩⟩
    have knownBefore : folder ∈ state.startup.world.store.folderList := sameList ▸ known
    have inLog := List.mem_of_getElem? atOther
    refine kept folder knownBefore arrival.2 id (mem_folderMails_iff.mpr (.inr ⟨old, inLog, ?_⟩)) isId
      (applied arrival isLate folder knownBefore inFolder id isId).2
    rw [inFolder]
    exact holds.late old inLog arrival isLate
  refine ⟨?_, holds.notShutdown, holds.gate, holds.synced, ?_, holds.unlisted, holds.late,
    holds.fresh, ⟨Feed.handle ⟨length, position, index :: indices, cursor⟩ index indices,
      ⟨tracks.length, tracks.position, later, nofun, ?_⟩, (gapless.mono grows).handle rfl ?_⟩⟩
  · obtain ⟨list, current, remaining, ids, entries⟩ := holds.knows
    rw [← sameList] at list current remaining ids entries
    exact ⟨list, current, remaining, ids, entries⟩
  · intro sound folder known mail id early isId
    dsimp only at known ⊢
    rw [sameList] at known
    have before := holds_of_listedOrHeld (.inr ⟨folders, running⟩)
      (holds.early sound folder known mail id early isId)
    rw [running]
    exact .inr (kept folder known mail id (onServer_of_early early) isId before)
  · intro last isLast
    obtain rfl : index = last := Option.some.inj isLast
    refine ⟨entry, found, ?_⟩
    rw [process, (advanceCursor_facts _ _ _).2, entry.announcement.inGroup, Dict.get?_set, if_pos rfl]
  · refine ⟨entry, found, fun arrival isLate folder known inFolder id isId => ⟨done, ?_⟩⟩
    have knownBefore : folder ∈ state.startup.world.store.folderList := sameList ▸ known
    obtain ⟨ev, inBatch, creates, inList, mailEid, places, isMail⟩ :=
      entry.announcement.announced arrival (holds.late entry (List.mem_of_getElem? found) arrival isLate)
    obtain rfl : mailEid = id := Option.some.inj (isMail.symm.trans isId)
    exact holds_of_canApply faithfulNow events newMail canApply holds.knows.entries knownBefore
      inBatch creates (inList.trans inFolder.symm) places

theorem bootInvariant_step (faithful : Faithful env.backend) (lists : ListsFolders env.backend)
    (identified : ∀ entriesListId, ∀ mail ∈ initial entriesListId, mail.elementId.isSome)
    (state : Bootstrap env.backend group) (label : BootLabel env.backend group)
    (next : Bootstrap env.backend group) (timely : Timely env group initial state label)
    (holds : BootInvariant initial state) (stepped : bootStep env group initial state label = some next) :
    BootInvariant initial next := by
  cases label with
  | syncer =>
    obtain ⟨startup, syncerStepped, rfl⟩ := Option.map_eq_some_iff.mp stepped
    exact bootInvariant_syncer lists holds syncerStepped
  | publish announcement =>
    simp only [bootStep] at stepped
    split at stepped
    · cases stepped
    next isNew =>
      cases stepped
      exact bootInvariant_publish holds isNew
  | connect =>
    simp only [bootStep] at stepped
    split at stepped <;> cases stepped
    exact bootInvariant_connect holds timely
  | connectFails =>
    simp only [bootStep] at stepped
    split at stepped <;> cases stepped
    exact holds
  | push =>
    simp only [bootStep] at stepped
    split at stepped
    next entry _ found =>
      cases stepped
      exact bootInvariant_push holds found
    next => cases stepped
  | disconnect =>
    cases stepped
    obtain ⟨feed, tracks, gapless⟩ := holds.feed
    exact { holds with feed := ⟨feed, { tracks with }, gapless⟩ }
  | handler =>
    simp only [bootStep] at stepped
    split at stepped
    next msg rest done head =>
      cases stepped
      refine bootInvariant_handler faithful identified holds done head (timely msg ?_)
      rw [head]
      rfl
    next => cases stepped

end Preserved

/-- In every schedule of listings, connections, arrivals and handled batches, from a
start without cursors, whose steps are timely: once the full sync has ended
without an error and the channel is drained, every mail of a known folder that was
there from the start or arrived up to the batch that was handled last is in
memory. -/
theorem bootstrap_without_gap (env : Env) (group : String) (initial : String → List Mail)
    (faithful : Faithful env.backend) (lists : ListsFolders env.backend)
    (identified : ∀ entriesListId, ∀ mail ∈ initial entriesListId, mail.elementId.isSome)
    (localStore : LocalStore) (tick : Nat) {schedule : List (BootLabel env.backend group)}
    {final : Bootstrap env.backend group}
    (steps : Steps (bootStep env group initial) (.start env group localStore tick) schedule final)
    (timely : Careful (bootStep env group initial) (Timely env group initial)
      (.start env group localStore tick) schedule)
    (synced : final.synced = true) (drained : final.startup.queue = []) {last : Nat}
    {entry : Published env.backend group} (isLast : final.log[last]? = some entry)
    (handled : final.startup.world.lastBatchIds.get? group = some entry.announcement.batch.batchId)
    {folder : FolderInfo} (known : folder ∈ final.startup.world.store.folderList) {mail : Mail}
    {id : String} (isId : mail.elementId = some id)
    (onServer : mail ∈ folderMails env group initial (final.log.take (last + 1)) folder.entriesListId) :
    final.startup.world.store.Holds folder.id id := by
  have holds : BootInvariant initial final :=
    steps.invariant_of_careful (BootInvariant initial)
      (bootInvariant_step faithful lists identified) timely (bootInvariant_start localStore tick)
  have ofEarly : Early initial final.log folder mail → final.startup.world.store.Holds folder.id id := by
    intro early
    exact holds_of_listedOrHeld (holds.synced synced)
      (holds.early (.inl synced) folder known mail id early isId)
  have appliedUpTo : ∀ index ≤ last, Applied final index := by
    intro index before
    obtain ⟨feed, tracks, gapless⟩ := holds.feed
    have noneQueued : feed.queue = [] := by
      have queue := tracks.queue
      rw [drained] at queue
      exact List.forall₂_nil_left_iff.mp queue
    cases isCursor : feed.cursor with
    | none =>
      rw [tracks.noCursor isCursor] at handled
      cases handled
    | some handledIndex =>
      obtain ⟨found, atHandled, stored⟩ := tracks.cursor handledIndex isCursor
      have sameId : found.announcement.batch.batchId = entry.announcement.batch.batchId :=
        Option.some.inj (stored.symm.trans handled)
      have sameIndex : handledIndex = last := by
        rw [← findIdx_of_fresh holds.fresh atHandled, sameId, findIdx_of_fresh holds.fresh isLast]
      exact gapless.done_of_drained noneQueued isCursor (sameIndex ▸ before)
  rcases mem_folderMails_iff.mp onServer with fromStart | ⟨other, mem, arrived⟩
  · exact ofEarly (.inl fromStart)
  · by_cases isLate : (folder.entriesListId, mail) ∈ other.late
    · obtain ⟨index, atIndex⟩ := List.mem_iff_getElem?.mp mem
      rw [List.getElem?_take] at atIndex
      split at atIndex
      next before =>
        have applied := appliedUpTo index (Nat.lt_succ_iff.mp before)
        obtain ⟨found, sameEntry, held⟩ := applied
        obtain rfl : other = found := Option.some.inj (atIndex.symm.trans sameEntry)
        exact (held _ isLate folder known rfl id isId).2
      next => cases atIndex
    · exact ofEarly (.inr ⟨other, List.mem_of_mem_take mem, arrived, isLate⟩)

/-! ## An inbox that mail arrives in -/

/-- A server with one folder that answers every request. -/
def inboxEnv : Env :=
  quietEnv (listingBackend [sampleFolder "inbox" "entries"] [sampleMail entryMail])

/-- The arrival of the fixtures' mail in the inbox. -/
def inboxArrival : Announcement inboxEnv.backend "mailGroup" where
  batch := arrival
  arrivals := [("entries", sampleMail entryMail)]
  inGroup := rfl
  announced := by
    intro placed mem
    obtain rfl := List.mem_singleton.mp mem
    exact ⟨entryEvent "entries" .create, List.mem_cons_self, rfl, rfl, entryMail,
      by decide +kernel, rfl⟩
  onlyNewMail := by
    intro ev mem
    obtain rfl := List.mem_singleton.mp mem
    decide
  faithful := by
    intro ev mem
    obtain rfl := List.mem_singleton.mp mem
    exact entryEvent_faithful _ _ _ _

/-- A batch without mail. -/
def otherBatch : Announcement inboxEnv.backend "mailGroup" where
  batch := ⟨"b2", "mailGroup", []⟩
  arrivals := []
  inGroup := rfl
  announced _ mem := nomatch mem
  onlyNewMail _ mem := nomatch mem
  faithful _ mem := nomatch mem

/-- The schedule of a bus that connects first. -/
def timelySchedule : List (BootLabel inboxEnv.backend "mailGroup") :=
  .connect :: List.replicate 11 .syncer ++ [.publish inboxArrival, .push]

/-- The batch can be applied when it is handled. -/
theorem canApply_after_timelySchedule {state : Bootstrap inboxEnv.backend "mailGroup"}
    (steps : Steps (bootStep inboxEnv "mailGroup" fun _ => [])
      (.start inboxEnv "mailGroup" .blank 0) timelySchedule state) :
    Timely inboxEnv "mailGroup" (fun _ => []) state .handler := by
  let Ready (state : Bootstrap inboxEnv.backend "mailGroup") : Prop :=
    let env := envAt inboxEnv "mailGroup" (fun _ => []) state.log
    let world := state.startup.world
    let ev := entryEvent "entries" .create
    let start := beginBatch env (bucketUpdates arrival.updates) world
    let resolved := resolveMailSetEntry env ev start.world
    state.startup.queue.head? = some (.entityUpdate arrival) ∧
      folderByEntries (batchFolders env arrival world) "entries" = some (sampleFolder "inbox" "entries") ∧
      lastListing env arrival world "inbox" = none ∧
      entryPair (batchFolders env arrival world) ev = some ("inbox", entryMail) ∧
      resolved.1 = some ⟨"list1", entryMail⟩ ∧
      env.backend.loadMail resolved.2.tick "list1" entryMail = .ok (some (sampleMail entryMail))
  have ready : Ready state := Steps.of_all Ready (by decide +kernel) steps
  obtain ⟨head, known, notListed, paired, resolved, loaded⟩ := ready
  intro msg isHead
  obtain rfl : msg = .entityUpdate arrival := Option.some.inj (isHead.symm.trans head)
  intro ev inBatch _ mailEid places
  obtain rfl := List.mem_singleton.mp inBatch
  have placed : placedMail (entryEvent "entries" .create) = some entryMail := by decide +kernel
  obtain rfl : mailEid = entryMail := Option.some.inj (places.symm.trans placed)
  refine ⟨sampleFolder "inbox" "entries", known, ?_⟩
  rw [show (sampleFolder "inbox" "entries").id = "inbox" from rfl, notListed]
  exact ⟨.inr (.inl ⟨paired, .inr (.inr ⟨_, _, resolved, loaded⟩)⟩), fun _ inNone => absurd inNone List.not_mem_nil, trivial⟩

/-- The bus connects before the inbox is listed: the mail that arrives later is in
memory once its batch is handled. -/
theorem bootstrap_without_gap_connected_first : ∃ final, Steps (bootStep inboxEnv "mailGroup" fun _ => [])
        (.start inboxEnv "mailGroup" .blank 0) (timelySchedule ++ [.handler]) final ∧
      final.startup.world.store.Holds "inbox" entryMail := by
  have run : ∃ final, Steps (bootStep inboxEnv "mailGroup" fun _ => [])
      (.start inboxEnv "mailGroup" .blank 0) (timelySchedule ++ [.handler]) final ∧
      final.synced = true ∧ final.startup.queue = [] ∧
        (final.log.map fun entry => entry.announcement.batch.batchId) = ["b1"] ∧
        final.startup.world.lastBatchIds.get? "mailGroup" = some "b1" ∧
        sampleFolder "inbox" "entries" ∈ final.startup.world.store.folderList ∧
        sampleMail entryMail ∈ folderMails inboxEnv "mailGroup" (fun _ => []) (final.log.take 1)
          "entries" := by
    apply Steps.exists_of_any
    decide +kernel
  obtain ⟨final, steps, synced, drained, batches, handled, known, onServer⟩ := run
  obtain ⟨entry, isLog, isBatch⟩ := List.map_eq_singleton_iff.mp batches
  have timely : Careful (bootStep inboxEnv "mailGroup" fun _ => [])
      (Timely inboxEnv "mailGroup" fun _ => []) (.start inboxEnv "mailGroup" .blank 0)
      (timelySchedule ++ [.handler]) := by
    refine Steps.careful_append ⟨fun _ => nofun, fun next _ => ?_⟩ fun middle steps =>
      ⟨canApply_after_timelySchedule steps, fun _ _ => trivial⟩
    apply Steps.careful_of_forall
    intro label mem state
    rcases List.mem_append.mp mem with syncs | others
    · rw [List.eq_of_mem_replicate syncs]
      trivial
    · rcases List.mem_cons.mp others with rfl | isPush
      · trivial
      · rw [List.mem_singleton.mp isPush]
        trivial
  refine ⟨final, steps, ?_⟩
  exact bootstrap_without_gap inboxEnv "mailGroup" (fun _ => []) (listingBackend_faithful (by decide))
    (fun _ _ answered => by cases answered; decide) (fun _ _ => nofun) .blank 0 steps timely synced
    drained (by rw [isLog]; rfl) (handled.trans (congrArg some isBatch.symm)) known rfl onServer

/-- The inbox is listed, mail arrives, the bus connects without a cursor, and the
next batch is handled: the mail is neither listed nor pushed. -/
theorem bootstrap_gap : ∃ schedule final, Steps (bootStep inboxEnv "mailGroup" fun _ => [])
        (.start inboxEnv "mailGroup" .blank 0) schedule final ∧
      (final.synced = true ∧ final.startup.queue = [] ∧
        (final.startup.world.lastBatchIds.get? "mailGroup").isSome ∧
        final.startup.world.lastBatchIds.get? "mailGroup" =
          (final.log[1]?).map fun entry => entry.announcement.batch.batchId) ∧
      folderMails inboxEnv "mailGroup" (fun _ => []) (final.log.take 1) "entries" = [sampleMail entryMail] ∧
      sampleFolder "inbox" "entries" ∈ final.startup.world.store.folderList ∧
      ¬ final.startup.world.store.Holds "inbox" entryMail := by
  refine ⟨List.replicate 9 .syncer ++ [.publish inboxArrival, .syncer, .syncer, .connect,
    .publish otherBatch, .push, .handler], ?_⟩
  apply Steps.exists_of_any
  decide +kernel

end TutaBridge.Runs
