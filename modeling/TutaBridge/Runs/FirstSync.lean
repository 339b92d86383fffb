import TutaBridge.Runs.FullSync
import TutaBridge.Std.Before

/-!
# The UIDs of a first sync

Entries come newest first, and a first sync numbers the mails of a folder from the last to
the first, so that newer mail has higher UIDs. Between the two the mails are grouped by mail
list, and the groups are put together in the order in which a hash map is iterated. Within a
mail list the order is kept; of two lists, the one whose group comes later has the lower UIDs.
-/

namespace TutaBridge.Runs

open TutaBridge.Std Tuta Store Bridge Sync
open Events

/-- `load_multiple` answers in the order of the request. -/
def InRequestOrder (client : EntityClient) (server : MailServer) : Prop :=
  ∀ tick listId ids batch, client.loadMultiple tick listId ids = .ok batch →
    batch = ids.filterMap fun id => server.mails ⟨listId, id⟩

/-- Of two mails of the folder the older has the smaller UID. Entries come newest first. -/
def ArrivalOrder (server : MailServer) (folder : FolderInfo) (world : World) : Prop :=
  ∀ newer older, Before newer older (server.entries folder.entriesListId) →
    ∀ ofNewer ∈ world.store.getFolder folder.id, ∀ ofOlder ∈ world.store.getFolder folder.id,
      ofNewer.mail.id = some newer.mail → ofOlder.mail.id = some older.mail → ofOlder.uid < ofNewer.uid

/-- The mail of an entry exists, and its mail list was loaded. -/
def isLoaded (client : EntityClient) (server : MailServer) (folder : FolderInfo) (tick : Nat)
    (entry : ListedEntry) : Bool :=
  (client.loadMultiple tick entry.mail.listId
      (requestedIds (server.entries folder.entriesListId) entry.mail.listId)).isOk &&
    (server.mails entry.mail).isSome

/-- The mail lists of a folder, in the order in which they are loaded. -/
def listOrder (env : Env) (server : MailServer) (folder : FolderInfo) (tick : Nat) : List String :=
  env.hashOrder tick (byList (server.entries folder.entriesListId)).keys

/-- Two loaded entries are of mails with ids of their own, in one mail list or in two of which
that of the newer mail is loaded first. -/
def ListsInOrder (env : Env) (client : EntityClient) (server : MailServer) (folder : FolderInfo)
    (tick : Nat) : Prop :=
  ∀ newer older, Before newer older (server.entries folder.entriesListId) →
    isLoaded client server folder tick newer → isLoaded client server folder tick older →
      newer.mail.elementId ≠ older.mail.elementId ∧ (newer.mail.listId = older.mail.listId ∨
          Before newer.mail.listId older.mail.listId (listOrder env server folder tick))

/-! ## The listing -/

/-- The loaded entries, in the order of their groups. -/
def loadedEntries (env : Env) (client : EntityClient) (server : MailServer) (folder : FolderInfo)
    (tick : Nat) : List ListedEntry :=
  (listOrder env server folder tick).flatMap fun listId =>
    (server.entries folder.entriesListId).filter fun entry =>
      entry.mail.listId = listId && isLoaded client server folder tick entry

section Listing

variable {env : Env} {client : EntityClient} {server : MailServer} {folder : FolderInfo} {tick : Nat}

theorem mem_listOrder {listId : String} : listId ∈ listOrder env server folder tick ↔
      ∃ entry ∈ server.entries folder.entriesListId, entry.mail.listId = listId := by
  rw [listOrder, (env.hashOrder_perm tick _).mem_iff, mem_keys_byList]

theorem nodup_listOrder : (listOrder env server folder tick).Nodup :=
  (env.hashOrder_perm tick _).nodup_iff.mpr (byList _).distinct

theorem mem_loadedEntries {entry : ListedEntry} : entry ∈ loadedEntries env client server folder tick ↔
      entry ∈ server.entries folder.entriesListId ∧ isLoaded client server folder tick entry := by
  simp only [loadedEntries, List.mem_flatMap, List.mem_filter, Bool.and_eq_true, decide_eq_true_eq]
  constructor
  · rintro ⟨listId, -, mem, -, loaded⟩
    exact ⟨mem, loaded⟩
  · rintro ⟨mem, loaded⟩
    exact ⟨entry.mail.listId, mem_listOrder.mpr ⟨entry, mem, rfl⟩, mem, rfl, loaded⟩

/-- The loaded entries of the folder have ids of their own. -/
def Distinct (client : EntityClient) (server : MailServer) (folder : FolderInfo) (tick : Nat) : Prop :=
  ∀ newer older, Before newer older (server.entries folder.entriesListId) →
    isLoaded client server folder tick newer → isLoaded client server folder tick older →
      newer.mail.elementId ≠ older.mail.elementId

/-- Grouping repeats no id. -/
theorem nodup_loadedEntries (distinct : Distinct client server folder tick) :
    ((loadedEntries env client server folder tick).map fun entry => entry.mail.elementId).Nodup := by
  rw [loadedEntries, List.map_flatMap, List.nodup_flatMap]
  constructor
  · intro listId _
    rw [List.Nodup, List.pairwise_map, List.pairwise_iff_forall_sublist]
    intro newer older before
    have inGroup := Before.mem before
    simp only [List.mem_filter, Bool.and_eq_true] at inGroup
    exact distinct newer older (List.Sublist.trans before List.filter_sublist) inGroup.1.2.2 inGroup.2.2.2
  · refine nodup_listOrder.imp_of_mem fun {listId other} _ _ different => ?_
    apply List.disjoint_left.mpr
    intro elementId inGroup inOther
    obtain ⟨entry, mem, rfl⟩ := List.mem_map.mp inGroup
    obtain ⟨twin, twinMember, sameId⟩ := List.mem_map.mp inOther
    simp only [List.mem_filter, Bool.and_eq_true, decide_eq_true_eq] at mem twinMember
    obtain ⟨inFolder, rfl, loaded⟩ := mem
    obtain ⟨twinInFolder, rfl, twinLoaded⟩ := twinMember
    have notSame : entry ≠ twin := fun same => different (by rw [same])
    rcases before_or_before inFolder twinInFolder notSame with before | before
    · exact distinct entry twin before loaded twinLoaded sameId.symm
    · exact distinct twin entry before twinLoaded loaded sameId

/-- The mails of a group, in the order of the entries. -/
theorem loadGroup_eq (inOrder : InRequestOrder client server) (listId : String) :
    loadGroup client tick (server.entries folder.entriesListId) listId =
      ((server.entries folder.entriesListId).filter fun entry =>
        entry.mail.listId = listId && isLoaded client server folder tick entry).filterMap
          fun entry => server.mails entry.mail := by
  have ofList : ∀ entry : ListedEntry, entry.mail.listId = listId →
      entry.mail = ⟨listId, entry.mail.elementId⟩ := by
    rintro entry rfl
    rfl
  rw [loadGroup, get?_byList]
  cases answer : client.loadMultiple tick listId
      (requestedIds (server.entries folder.entriesListId) listId) with
  | error message =>
    have nothing : (server.entries folder.entriesListId).filter (fun entry =>
        entry.mail.listId = listId && isLoaded client server folder tick entry) = [] := by
      rw [List.filter_eq_nil_iff]
      intro entry _ both
      rw [Bool.and_eq_true, decide_eq_true_eq] at both
      have failed : (client.loadMultiple tick entry.mail.listId (requestedIds
          (server.entries folder.entriesListId) entry.mail.listId)).isOk = true :=
        (Bool.and_eq_true _ _ ▸ both.2).1
      rw [both.1, answer] at failed
      cases failed
    rw [nothing]
    rfl
  | ok batch =>
    have isBatch := inOrder _ _ _ _ answer
    rw [requestedIds, List.filterMap_map] at isBatch
    rw [isBatch, List.filterMap_filter, List.filterMap_filter]
    refine List.filterMap_congr fun entry _ => ?_
    by_cases sameList : entry.mail.listId = listId
    · have whole := ofList entry sameList
      have isOk : (client.loadMultiple tick entry.mail.listId (requestedIds
          (server.entries folder.entriesListId) entry.mail.listId)).isOk = true := by
        rw [sameList, answer]
        rfl
      have loaded : isLoaded client server folder tick entry = (server.mails entry.mail).isSome := by
        rw [isLoaded, isOk, Bool.true_and]
      cases found : server.mails entry.mail with
      | none => simp [sameList, ← whole, found]
      | some mail => simp [sameList, loaded, ← whole, found]
    · simp [sameList]

/-- What is listed are the mails of the loaded entries. -/
theorem listed_eq (serves : client.Serves server) (inOrder : InRequestOrder client server) {mails : List Mail}
    (answered : loadMailIdsForFolder client (env.hashOrder tick) tick folder 0 = .ok mails) :
    mails = (loadedEntries env client server folder tick).filterMap fun entry => server.mails entry.mail := by
  have loaded := loadEntries_of_ok serves answered
  have isListing : (listOrder env server folder tick).flatMap
      (loadGroup client tick (server.entries folder.entriesListId)) = mails := by
    simpa [loadMailIdsForFolder, loadMailIdsForFolderImpl, loaded, Except.mapError, listOrder] using answered
  rw [← isListing, loadedEntries, List.filterMap_flatMap]
  exact List.flatMap_congr fun listId _ => loadGroup_eq inOrder listId

/-- The ids of the listed mails are those of the loaded entries. -/
theorem elementIds_listed : ((loadedEntries env client server folder tick).filterMap
        fun entry => server.mails entry.mail).filterMap Mail.elementId =
      (loadedEntries env client server folder tick).map fun entry => entry.mail.elementId := by
  rw [List.filterMap_filterMap, ← List.filterMap_eq_map]
  refine List.filterMap_congr fun entry mem => ?_
  obtain ⟨-, loaded⟩ := mem_loadedEntries.mp mem
  obtain ⟨mail, found⟩ := Option.isSome_iff_exists.mp (Bool.and_eq_true _ _ ▸ loaded).2
  rw [found, Option.bind_some, Mail.elementId, server.mails_id _ _ found]
  rfl

/-- The order of the groups is the order of the entries, where the mail lists are in order. -/
theorem before_loadedEntries_iff {newer older : ListedEntry}
    (before : Before newer older (server.entries folder.entriesListId))
    (newerLoaded : isLoaded client server folder tick newer = true)
    (olderLoaded : isLoaded client server folder tick older = true) (distinct : Distinct client server folder tick) :
    Before newer older (loadedEntries env client server folder tick) ↔ newer.mail.listId = older.mail.listId ∨
        Before newer.mail.listId older.mail.listId (listOrder env server folder tick) := by
  obtain ⟨newerIn, olderIn⟩ := before.mem
  have isKey : ∀ entry ∈ server.entries folder.entriesListId,
      entry.mail.listId ∈ listOrder env server folder tick :=
    fun entry mem => mem_listOrder.mpr ⟨entry, mem, rfl⟩
  have inGroup : ∀ entry ∈ server.entries folder.entriesListId,
      isLoaded client server folder tick entry = true →
      entry ∈ (server.entries folder.entriesListId).filter fun other =>
        other.mail.listId = entry.mail.listId && isLoaded client server folder tick other :=
    fun entry mem loaded => List.mem_filter.mpr ⟨mem, by simp [loaded]⟩
  constructor
  · intro grouped
    by_cases sameList : newer.mail.listId = older.mail.listId
    · exact Or.inl sameList
    · refine Or.inr ((before_or_before (isKey newer newerIn) (isKey older olderIn) sameList).resolve_right
        fun wrong => ?_)
      -- the group of the older mail would come first, and no entry is there twice
      have swapped : Before older newer (loadedEntries env client server folder tick) :=
        wrong.flatMap_of_before (inGroup older olderIn olderLoaded) (inGroup newer newerIn newerLoaded)
      obtain ⟨place, later, ascends, isNewer, isOlder⟩ := grouped.places
      obtain ⟨olderPlace, newerPlace, swaps, isOlder', isNewer'⟩ := Before.places swapped
      have onlyOnce := (@nodup_loadedEntries env client server folder tick distinct).of_map
      have newerSame := (List.getElem?_inj (List.getElem?_eq_some_iff.mp isNewer).1 onlyOnce).mp
        (isNewer.trans isNewer'.symm)
      have olderSame := (List.getElem?_inj (List.getElem?_eq_some_iff.mp isOlder).1 onlyOnce).mp
        (isOlder.trans isOlder'.symm)
      omega
  · rintro (sameList | ordered)
    · refine Before.flatMap_of_mem (isKey newer newerIn) (before.filter ?_ ?_)
      · simp [newerLoaded]
      · simp [sameList, olderLoaded]
    · exact ordered.flatMap_of_before (inGroup newer newerIn newerLoaded)
        (inGroup older olderIn olderLoaded)

end Listing

/-! ## The UIDs -/

section Uids

variable {env : Env} {folder : FolderInfo} {world : World}

/-- The disk takes the UIDs of a sync. -/
def TakesUids (env : Env) (folder : FolderInfo) (world : World) : Prop :=
  env.diskFault (listFolder env folder world).2.tick = none

/-- The folder after a sync whose UIDs the disk took. -/
theorem syncFolder_store_of_takesUids {mails : List Mail} (takes : TakesUids env folder world)
    (listed : (listFolder env folder world).1 = .ok mails) : (syncFolder env folder world).2.store =
      world.store.setFolder folder.id (listedMails world folder.id mails) := by
  have allocated : ∀ ids : List String, (allocateNew env folder.id ids (listFolder env folder world).2).1 =
        LocalStore.assignUids .empty (world.localStore.nextUid folder.id) ids := by
    intro ids
    cases ids with
    | nil => rfl
    | cons head rest =>
      have works : env.diskFault (listFolder env folder world).2.tick = none := takes
      simp [allocateNew, World.call, works, LocalStore.allocateFolderUids, listFolder_localStore]
  simp only [syncFolder, listed, World.mapStore_store, persistListing_store, listFolder_store]
  simp only [persistListing, listFolder_store, allocated]
  rfl

/-- UIDs are handed out in the order of the ids. -/
theorem assignUids_lt {next : Nat} {ids : List String} (distinct : ids.Nodup)
    (fits : next + ids.length ≤ 2 ^ 32) {first second : String} (before : Before first second ids) :
    ((LocalStore.assignUids .empty next ids).get? first).getD 0 <
      ((LocalStore.assignUids .empty next ids).get? second).getD 0 := by
  have value : ∀ {place : Nat} {id : String}, ids[place]? = some id →
      ((LocalStore.assignUids .empty next ids).get? id).getD 0 = next + place := by
    intro place id isThere
    have inIds := List.mem_of_getElem? isThere
    obtain ⟨uid, handedOut⟩ := Option.isSome_iff_exists.mp
      (LocalStore.isSome_get?_assignUids .empty next (.inl inIds))
    rcases LocalStore.get?_assignUids handedOut with ⟨absent, -⟩ | ⟨index, isHere, isUid⟩
    · exact absurd inIds absent
    · have inside := (List.getElem?_eq_some_iff.mp isHere).1
      have samePlace := (List.getElem?_inj inside distinct).mp (isHere.trans isThere.symm)
      rw [handedOut, Option.getD_some, isUid, ← samePlace, Nat.mod_eq_of_lt (by omega)]
  obtain ⟨place, later, ascends, isFirst, isSecond⟩ := before.places
  rw [value isFirst, value isSecond]
  omega

end Uids

/-! ## The first sync -/

section FirstSync

variable {env : Env} {client : EntityClient} {server : MailServer} {folder : FolderInfo}
  {world : World} {attempt : Nat}

/-- The UID that a first sync hands out to the mail of an entry. -/
def firstUid (env : Env) (client : EntityClient) (server : MailServer) (folder : FolderInfo)
    (world : World) (tick : Nat) (entry : ListedEntry) : Nat :=
  ((LocalStore.assignUids .empty (world.localStore.nextUid folder.id)
    ((loadedEntries env client server folder tick).map fun entry =>
      entry.mail.elementId).reverse).get? entry.mail.elementId).getD 0

section

variable (serves : client.Serves server) (inOrder : InRequestOrder client server)
    (uncached : world.store.getFolder folder.id = [])
    (takes : TakesUids (listingEnv env client) folder world)
    (first : FirstAnswer client folder world.tick attempt)

include serves inOrder uncached takes first

/-- A first sync stores the mails of the loaded entries, each with the UID handed out to it. -/
theorem getFolder_firstSync : ∀ entry ∈ server.entries folder.entriesListId,
      let after := (syncFolder (listingEnv env client) folder world).2
      ((∃ stored ∈ after.store.getFolder folder.id, stored.mail.id = some entry.mail) ↔
        isLoaded client server folder (world.tick + attempt) entry = true) ∧
      ∀ stored ∈ after.store.getFolder folder.id, stored.mail.id = some entry.mail →
        stored.uid = firstUid env client server folder world (world.tick + attempt) entry := by
  obtain ⟨mails, listed, answered⟩ := @listFolder_of_first env client _ _ _ first
  have isListing := listed_eq serves inOrder answered
  have ids := @elementIds_listed env client server folder (world.tick + attempt)
  have newIds : newElementIds [] mails =
      ((loadedEntries env client server folder (world.tick + attempt)).map fun entry =>
        entry.mail.elementId).reverse := by
    rw [newElementIds, List.filterMap_reverse, isListing, ids, List.filter_eq_self]
    exact fun _ _ => rfl
  have isFolder : (syncFolder (listingEnv env client) folder world).2.store.getFolder folder.id =
      mails.map (syncedMail [] (listedUids world folder.id mails)) := by
    rw [syncFolder_store_of_takesUids takes listed, MailStore.getFolder_setFolder, if_pos rfl,
      listedMails, uncached]
  intro entry mem after
  rw [isFolder]
  refine ⟨⟨?_, ?_⟩, ?_⟩
  · rintro ⟨stored, inFolder, isEntry⟩
    obtain ⟨mail, inMails, rfl⟩ := List.mem_map.mp inFolder
    obtain ⟨source, isSource, found⟩ := List.mem_filterMap.mp (isListing ▸ inMails)
    have own := server.mails_id _ _ found
    rw [syncedMail_mail, own] at isEntry
    obtain ⟨-, loaded⟩ := mem_loadedEntries.mp isSource
    rw [isLoaded, Option.some.inj isEntry] at loaded
    exact loaded
  · intro loaded
    obtain ⟨mail, found⟩ := Option.isSome_iff_exists.mp (Bool.and_eq_true _ _ ▸ loaded).2
    have inMails : mail ∈ mails := by
      rw [isListing]
      exact List.mem_filterMap.mpr ⟨entry, mem_loadedEntries.mpr ⟨mem, loaded⟩, found⟩
    refine ⟨_, List.mem_map_of_mem inMails, ?_⟩
    rw [syncedMail_mail]
    exact server.mails_id _ _ found
  · intro stored inFolder isEntry
    obtain ⟨mail, -, rfl⟩ := List.mem_map.mp inFolder
    rw [syncedMail_mail] at isEntry
    have identified : mail.elementId = some entry.mail.elementId := by
      rw [Mail.elementId, isEntry]
      rfl
    have unseen : existingMail [] entry.mail.elementId = none := rfl
    rw [syncedMail_uid, syncedUid, identified, Option.bind_some, unseen, Option.map_none,
      Option.none_or, listedUids, uncached, newIds]
    rfl

/-- The order of arrival is the order of the UIDs that were handed out. -/
theorem arrivalOrder_iff_firstUid :
    ArrivalOrder server folder (syncFolder (listingEnv env client) folder world).2 ↔
      ∀ newer older, Before newer older (server.entries folder.entriesListId) →
        isLoaded client server folder (world.tick + attempt) newer →
        isLoaded client server folder (world.tick + attempt) older →
          firstUid env client server folder world (world.tick + attempt) older <
            firstUid env client server folder world (world.tick + attempt) newer := by
  have stores := @getFolder_firstSync env client server folder world attempt serves inOrder uncached takes first
  constructor
  · intro arrival newer older before newerLoaded olderLoaded
    obtain ⟨newerIn, olderIn⟩ := before.mem
    obtain ⟨isNewer, newerUid⟩ := stores newer newerIn
    obtain ⟨isOlder, olderUid⟩ := stores older olderIn
    obtain ⟨ofNewer, newerThere, newerId⟩ := isNewer.mpr newerLoaded
    obtain ⟨ofOlder, olderThere, olderId⟩ := isOlder.mpr olderLoaded
    rw [← newerUid ofNewer newerThere newerId, ← olderUid ofOlder olderThere olderId]
    exact arrival newer older before ofNewer newerThere ofOlder olderThere newerId olderId
  · intro ascends newer older before ofNewer newerThere ofOlder olderThere newerId olderId
    obtain ⟨newerIn, olderIn⟩ := before.mem
    obtain ⟨isNewer, newerUid⟩ := stores newer newerIn
    obtain ⟨isOlder, olderUid⟩ := stores older olderIn
    rw [newerUid ofNewer newerThere newerId, olderUid ofOlder olderThere olderId]
    exact ascends newer older before (isNewer.mp ⟨ofNewer, newerThere, newerId⟩)
      (isOlder.mp ⟨ofOlder, olderThere, olderId⟩)

end

/-- Entries in the order of their groups have descending UIDs. -/
theorem firstUid_lt {tick : Nat} (distinct : Distinct client server folder tick)
    (fits : world.localStore.nextUid folder.id + (server.entries folder.entriesListId).length ≤ 2 ^ 32)
    {newer older : ListedEntry} (before : Before newer older (loadedEntries env client server folder tick)) :
    firstUid env client server folder world tick older < firstUid env client server folder world tick newer := by
  have onlyOnce := @nodup_loadedEntries env client server folder tick distinct
  have notMore : (loadedEntries env client server folder tick).length ≤
      (server.entries folder.entriesListId).length := by
    have inside : loadedEntries env client server folder tick ⊆ server.entries folder.entriesListId :=
      fun entry mem => (mem_loadedEntries.mp mem).1
    exact (List.subperm_of_subset (List.Nodup.of_map _ onlyOnce) inside).length_le
  have placed := (before.map fun entry => entry.mail.elementId).reverse
  refine assignUids_lt (List.nodup_reverse.mpr onlyOnce) ?_ placed
  rw [List.length_reverse, List.length_map]
  omega

/-- After a first sync that read the entries the UIDs follow the arrival of the mails exactly
where their ids are distinct and no two of them, from different mail lists, are in lists that
are put together the other way round. A first sync that never read the entries stores
nothing. -/
theorem firstSync_arrivalOrder_iff (env : Env) (serves : client.Serves server)
    (inOrder : InRequestOrder client server) (uncached : world.store.getFolder folder.id = [])
    (takes : TakesUids (listingEnv env client) folder world)
    (fits : world.localStore.nextUid folder.id + (server.entries folder.entriesListId).length ≤ 2 ^ 32) :
    (∀ attempt, FirstAnswer client folder world.tick attempt →
      (ArrivalOrder server folder (syncFolder (listingEnv env client) folder world).2 ↔
        ListsInOrder env client server folder (world.tick + attempt))) ∧
    ((∀ attempt ≤ maxRetries, (client.loadAll (world.tick + attempt) folder.entriesListId).isOk = false) →
      ArrivalOrder server folder (syncFolder (listingEnv env client) folder world).2) := by
  constructor
  · intro attempt first
    rw [arrivalOrder_iff_firstUid serves inOrder uncached takes first]
    constructor
    · intro ascends
      have distinct : Distinct client server folder (world.tick + attempt) := by
        intro newer older before newerLoaded olderLoaded sameId
        have smaller := ascends newer older before newerLoaded olderLoaded
        rw [firstUid, firstUid, sameId] at smaller
        exact absurd smaller (lt_irrefl _)
      intro newer older before newerLoaded olderLoaded
      refine ⟨distinct newer older before newerLoaded olderLoaded, ?_⟩
      rw [← before_loadedEntries_iff before newerLoaded olderLoaded distinct]
      obtain ⟨newerIn, olderIn⟩ := before.mem
      have different : newer ≠ older := fun same =>
        distinct newer older before newerLoaded olderLoaded (by rw [same])
      refine (before_or_before (mem_loadedEntries.mpr ⟨newerIn, newerLoaded⟩)
        (mem_loadedEntries.mpr ⟨olderIn, olderLoaded⟩) different).resolve_right fun wrong => ?_
      have larger := @firstUid_lt env client server folder world _ distinct fits _ _ wrong
      have smaller := ascends newer older before newerLoaded olderLoaded
      omega
    · intro ordered newer older before newerLoaded olderLoaded
      have distinct : Distinct client server folder (world.tick + attempt) :=
        fun newer older before newerLoaded olderLoaded =>
          (ordered newer older before newerLoaded olderLoaded).1
      refine firstUid_lt distinct fits ?_
      rw [before_loadedEntries_iff before newerLoaded olderLoaded distinct]
      exact (ordered newer older before newerLoaded olderLoaded).2
  · intro unanswered newer older _ ofNewer inFolder
    rw [(syncFolder_of_unanswered unanswered).1, uncached] at inFolder
    cases inFolder

end FirstSync

/-! ## Mails of two lists -/

/-- A folder that was never synced. -/
def freshWorld : World := sampleWorld [sampleFolder "inbox" "entries"] []

/-- The newer mail is in the list that is loaded first. -/
theorem firstSync_two_lists : ArrivalOrder twoLists (sampleFolder "inbox" "entries")
      (syncFolder (listingEnv (quietEnv (offlineBackend [])) (twoListsClient fun _ => false))
        (sampleFolder "inbox" "entries") freshWorld).2 := by
  have first : FirstAnswer (twoListsClient fun _ => false) (sampleFolder "inbox" "entries")
      freshWorld.tick 0 := ⟨by decide, rfl, by simp⟩
  have inOrder : InRequestOrder (twoListsClient fun _ => false) twoLists := by
    intro tick listId ids batch answered
    exact (Except.ok.inj answered).symm
  refine ((firstSync_arrivalOrder_iff (quietEnv (offlineBackend [])) (twoListsClient_serves _) inOrder
    (by decide) rfl (by decide)).1 0 first).mpr ?_
  intro newer older before _ _
  obtain ⟨rfl, rest⟩ := List.cons.inj (List.Sublist.eq_of_length before rfl)
  obtain ⟨rfl, -⟩ := List.cons.inj rest
  have keys : listOrder (quietEnv (offlineBackend [])) twoLists (sampleFolder "inbox" "entries")
      (freshWorld.tick + 0) = ["list1", "list2"] := by decide
  refine ⟨by decide, Or.inr ?_⟩
  rw [keys]
  exact List.Sublist.refl _

/-- A folder whose mails are by turns of two mail lists. -/
def mixedLists : MailServer where
  entries _ := [⟨⟨⟨"list1", "m3"⟩⟩, some "e3"⟩, ⟨⟨⟨"list2", "m2"⟩⟩, some "e2"⟩,
    ⟨⟨⟨"list1", "m1"⟩⟩, some "e1"⟩]
  mails ref := some { sampleMail ref.elementId with id := some ref }
  mails_id ref mail found := by
    cases found
    rfl

def mixedListsClient : EntityClient where
  loadAll _ listId := .ok (mixedLists.entries listId)
  loadRange _ listId _ count := .ok ((mixedLists.entries listId).take count)
  loadMultiple _ listId ids := .ok (ids.filterMap fun id => mixedLists.mails ⟨listId, id⟩)
  errorText _ := "offline"

/-- The second mail of the folder gets a smaller UID than the first. -/
theorem firstSync_mixed_lists :
    let after := (syncFolder (listingEnv (quietEnv (offlineBackend [])) mixedListsClient)
      (sampleFolder "inbox" "entries") freshWorld).2
    mixedListsClient.Serves mixedLists ∧ InRequestOrder mixedListsClient mixedLists ∧
      freshWorld.store.getFolder "inbox" = [] ∧
      (after.store.getFolder "inbox").map (fun stored => (stored.elementId, stored.uid)) =
        [(some "m3", 3), (some "m1", 2), (some "m2", 1)] ∧
      ¬ ArrivalOrder mixedLists (sampleFolder "inbox" "entries") after := by
  intro after
  have stored : after.store.getFolder "inbox" =
      [⟨{ sampleMail "m3" with id := some ⟨"list1", "m3"⟩ }, false, 3, false⟩,
        ⟨{ sampleMail "m1" with id := some ⟨"list1", "m1"⟩ }, false, 2, false⟩,
        ⟨{ sampleMail "m2" with id := some ⟨"list2", "m2"⟩ }, false, 1, false⟩] := by
    decide +kernel
  refine ⟨⟨?_, ?_⟩, ?_, by decide, ?_, ?_⟩
  · exact fun _ _ _ answered => (Except.ok.inj answered).symm
  · intro tick listId ids batch answered mail
    cases answered
    exact List.mem_filterMap
  · exact fun _ _ _ _ answered => (Except.ok.inj answered).symm
  · rw [stored]
    rfl
  · intro arrival
    have before : Before (⟨⟨⟨"list2", "m2"⟩⟩, some "e2"⟩ : ListedEntry) ⟨⟨⟨"list1", "m1"⟩⟩, some "e1"⟩
        (mixedLists.entries "entries") := List.Sublist.cons _ (List.Sublist.refl _)
    have smaller := arrival _ _ before
      ⟨{ sampleMail "m2" with id := some ⟨"list2", "m2"⟩ }, false, 1, false⟩ (by
        show _ ∈ after.store.getFolder "inbox"
        rw [stored]
        simp)
      ⟨{ sampleMail "m1" with id := some ⟨"list1", "m1"⟩ }, false, 2, false⟩ (by
        show _ ∈ after.store.getFolder "inbox"
        rw [stored]
        simp) rfl rfl
    exact absurd smaller (by decide)

end TutaBridge.Runs
