import TutaBridge.Runs.Startup
import TutaBridge.Sync.Listing

/-!
# The full sync

The loop of `run_syncer` that syncs every folder and, when none failed, sets the
marker that keeps later launches from doing it again. A sync fails only when the
entries of its folder cannot be read; a mail list that cannot be loaded leaves a
hole that the sync takes for deletions.
-/

namespace TutaBridge.Runs

open TutaBridge.Std Tuta Store Bridge Sync
open Events

/-- The loop over the folders. It ends without a result when the shutdown is seen,
else with `all_ok`. -/
def fullSyncLoop (env : Env) (shutdown : Nat → Bool) : List FolderInfo → Bool → World → Option Bool × World
  | [], allOk, world => (some allOk, world)
  | folder :: rest, allOk, world =>
    if shutdown world.tick then (none, world)
    else
      let synced := syncFolder env folder world
      fullSyncLoop env shutdown rest (allOk && synced.1.isOk) synced.2

/-- The full sync: the loop, then the marker if every folder synced. -/
def fullSync (env : Env) (shutdown : Nat → Bool) (folders : List FolderInfo) (world : World) :
    World :=
  let ran := fullSyncLoop env shutdown folders true world
  match ran.1 with
  | some true => ran.2.write env (·.setMeta fullMetadataMarker "1")
  | _ => ran.2

/-- The folders with the worlds their syncs start in. -/
def syncStarts (env : Env) : List FolderInfo → World → List (FolderInfo × World)
  | [], _ => []
  | folder :: rest, world => (folder, world) :: syncStarts env rest (syncFolder env folder world).2

/-! ## The loop and the syncer's pieces -/

section Pieces

variable {env : Env}

theorem isOk_syncFolder (env : Env) (folder : FolderInfo) (world : World) :
    (syncFolder env folder world).1.isOk = (listFolder env folder world).1.isOk := by
  cases answer : (listFolder env folder world).1 <;> simp [syncFolder, answer] <;> rfl

/-- One round of the loop is four pieces of the syncer, two when its listing
fails. -/
theorem checking_round (state : Startup) (notShutdown : state.shutdown = false)
    (folders rest : List FolderInfo) (folder : FolderInfo) (allOk : Bool) :
    ∃ pieces, Steps (startupStep env)
      { state with syncer := .checking folders (folder :: rest) allOk }
      (List.replicate pieces .syncer)
      { state with
        world := (syncFolder env folder state.world).2
        syncer := .checking folders rest (allOk && (syncFolder env folder state.world).1.isOk) } := by
  obtain ⟨world, syncer, handler, queue, closed, startupDone, shutdown⟩ := state
  cases notShutdown
  rw [isOk_syncFolder]
  cases answer : (listFolder env folder world).1 with
  | error message =>
    refine ⟨2, .cons rfl (.cons ?_ (.nil _))⟩
    simp only [startupStep, syncerStep, answer, syncFolder]
    simp [Except.isOk, Except.toBool]
  | ok newMails =>
    let listed : Startup :=
      ⟨(listFolder env folder world).2, .listed folders folder newMails rest allOk, handler, queue,
        closed, startupDone, false⟩
    have lists : startupStep env
        ⟨world, .listing folders folder rest allOk, handler, queue, closed, startupDone, false⟩
        .syncer = some listed := by
      simp only [startupStep, syncerStep, answer, listed]
    refine ⟨4, .cons rfl (.cons lists (.cons rfl (.cons ?_ (.nil _))))⟩
    simp [startupStep, syncerStep, answer, syncFolder, listed, Except.isOk, Except.toBool]

/-- The pieces of the syncer, run without a shutdown, are the full sync. -/
theorem checking_fullSync (state : Startup) (notShutdown : state.shutdown = false)
    (folders rest : List FolderInfo) (allOk : Bool) :
    ∃ pieces, Steps (startupStep env) { state with syncer := .checking folders rest allOk }
      (List.replicate pieces .syncer)
      { state with
        world :=
          let ran := fullSyncLoop env (fun _ => false) rest allOk state.world
          match ran.1 with
          | some true => ran.2.write env (·.setMeta fullMetadataMarker "1")
          | _ => ran.2
        syncer := .signalling folders } := by
  induction rest generalizing state allOk with
  | nil =>
    refine ⟨1, .single ?_⟩
    cases allOk <;> rfl
  | cons folder rest ih =>
    obtain ⟨early, round⟩ := @checking_round env state notShutdown folders rest folder allOk
    obtain ⟨late, others⟩ := ih
      { state with world := (syncFolder env folder state.world).2 } notShutdown
      (allOk && (syncFolder env folder state.world).1.isOk)
    refine ⟨early + late, ?_⟩
    rw [← List.replicate_append_replicate]
    exact round.append others

end Pieces

/-! ## What a sync forgets -/

/-- The attempt of a listing, among those `retry` makes from `tick` on, that reads
the entries of the folder. -/
def FirstAnswer (client : EntityClient) (folder : FolderInfo) (tick attempt : Nat) : Prop :=
  attempt ≤ maxRetries ∧ (client.loadAll (tick + attempt) folder.entriesListId).isOk = true ∧
    ∀ earlier < attempt, (client.loadAll (tick + earlier) folder.entriesListId).isOk = false

/-- The folder in memory has every mail that is in it on the server. -/
def HoldsFolder (server : MailServer) (folder : FolderInfo) (world : World) : Prop :=
  ∀ mail, server.InFolder folder mail → ∃ stored ∈ world.store.getFolder folder.id, stored.mail = mail

/-- The table has a row of the folder for every mail that is in it on the server. -/
def HasRows (server : MailServer) (folder : FolderInfo) (world : World) : Prop :=
  ∀ mail id, server.InFolder folder mail → mail.elementId = some id →
    ∃ row, world.localStore.mails.find? id = some row ∧ row.folderId = folder.id

/-- Nothing the bridge has of a mail that is in the folder on the server is gone:
the mail in memory, its row, its body file, its index row. -/
def RemovesNothing (server : MailServer) (folder : FolderInfo) (before after : World) : Prop :=
  ∀ mail id, server.InFolder folder mail → mail.elementId = some id →
    ((∃ stored ∈ before.store.getFolder folder.id, stored.elementId = some id) →
      ∃ stored ∈ after.store.getFolder folder.id, stored.elementId = some id) ∧
    KeepsMail id before.localStore after.localStore

section Forgets

variable {env : Env} {client : EntityClient} {server : MailServer} {folder : FolderInfo}
  {world : World}

/-- A listing fails exactly when its entries cannot be read. -/
theorem isOk_loadMailIdsForFolder (hashOrder : List String → List String) (tick : Nat) (folder : FolderInfo) :
    (loadMailIdsForFolder client hashOrder tick folder 0).isOk = (client.loadAll tick folder.entriesListId).isOk := by
  have all : loadEntries client tick folder.entriesListId 0 =
      client.loadAll tick folder.entriesListId := if_pos rfl
  cases loaded : client.loadAll tick folder.entriesListId <;>
    simp [loadMailIdsForFolder, loadMailIdsForFolderImpl, all, loaded, Except.mapError] <;> rfl

/-- The listing of a sync is the one of its first attempt that reads the entries. -/
theorem listFolder_of_first {attempt : Nat} (first : FirstAnswer client folder world.tick attempt) :
    ∃ mails, (listFolder (listingEnv env client) folder world).1 = .ok mails ∧
      loadMailIdsForFolder client (env.hashOrder (world.tick + attempt)) (world.tick + attempt)
        folder 0 = .ok mails := by
  obtain ⟨inTime, succeeds, earlier⟩ := first
  obtain ⟨mails, answered⟩ := exists_ok_of_isOk ((isOk_loadMailIdsForFolder
    (env.hashOrder (world.tick + attempt)) (world.tick + attempt) folder).trans succeeds)
  refine ⟨mails, retry_fst_of_first inTime answered fun before isEarlier => ?_, answered⟩
  exact (isOk_loadMailIdsForFolder _ _ _).trans (earlier before isEarlier)

/-- A sync that succeeded had an attempt that read the entries. -/
theorem exists_firstAnswer (succeeded : (syncFolder (listingEnv env client) folder world).1.isOk) :
    ∃ attempt, FirstAnswer client folder world.tick attempt := by
  rw [isOk_syncFolder] at succeeded
  by_cases answers : ∃ attempt, attempt ≤ maxRetries ∧
      (client.loadAll (world.tick + attempt) folder.entriesListId).isOk = true
  · classical
    refine ⟨Nat.find answers, (Nat.find_spec answers).1, (Nat.find_spec answers).2, ?_⟩
    intro earlier isEarlier
    have missed := Nat.find_min answers isEarlier
    have inTime : earlier ≤ maxRetries := isEarlier.le.trans (Nat.find_spec answers).1
    simpa [inTime] using missed
  · have failed : (listFolder (listingEnv env client) folder world).1.isOk = false := by
      apply retry_fst_of_none
      intro attempt inTime
      refine (isOk_loadMailIdsForFolder _ _ _).trans ?_
      simpa [inTime] using not_exists.mp answers attempt
    rw [failed] at succeeded
    cases succeeded

theorem elementId_of_inFolder {mail : Mail} (inFolder : server.InFolder folder mail) :
    ∃ id, mail.elementId = some id := by
  obtain ⟨entry, _, found⟩ := inFolder
  exact ⟨entry.mail.elementId, by rw [Mail.elementId, server.mails_id _ _ found]; rfl⟩

section Answered

variable {attempt : Nat} (serves : client.Serves server)
  (first : FirstAnswer client folder world.tick attempt)

include serves first

/-- After a sync the folder in memory is complete exactly when every mail list with
an existing mail of it was loaded. -/
theorem holdsFolder_syncFolder_iff : HoldsFolder server folder (syncFolder (listingEnv env client) folder world).2 ↔
      ListsLoad client server folder (world.tick + attempt) := by
  obtain ⟨mails, listed, answered⟩ := @listFolder_of_first env client folder world attempt first
  obtain ⟨uids, stored⟩ := exists_syncFolder_store listed
  rw [← listing_complete_iff serves (env.hashOrder_perm _) answered]
  simp only [HoldsFolder, stored, MailStore.getFolder_setFolder, if_true, List.mem_map]
  constructor
  · intro holds mail inFolder
    obtain ⟨_, ⟨source, mem, rfl⟩, same⟩ := holds mail inFolder
    rw [syncedMail_mail] at same
    exact same ▸ mem
  · intro complete mail inFolder
    exact ⟨_, ⟨mail, complete mail inFolder, rfl⟩, syncedMail_mail _ _ _⟩

/-- A complete listing removes nothing of a mail that is still in the folder. -/
theorem removesNothing_syncFolder (load : ListsLoad client server folder (world.tick + attempt)) :
    RemovesNothing server folder world (syncFolder (listingEnv env client) folder world).2 := by
  obtain ⟨mails, listed, answered⟩ := @listFolder_of_first env client folder world attempt first
  have complete := (listing_complete_iff serves (env.hashOrder_perm _) answered).mpr load
  intro mail id inFolder identified
  refine ⟨fun _ => ?_, syncFolder_keepsMail listed ?_⟩
  · obtain ⟨stored, mem, rfl⟩ :=
      (holdsFolder_syncFolder_iff serves first).mpr load mail inFolder
    exact ⟨stored, mem, identified⟩
  · exact List.mem_filterMap.mpr ⟨mail, complete mail inFolder, identified⟩

/-- On a working disk a complete listing is in the table. -/
theorem hasRows_syncFolder (diskOk : env.DiskOk) (load : ListsLoad client server folder (world.tick + attempt)) :
    HasRows server folder (syncFolder (listingEnv env client) folder world).2 := by
  obtain ⟨mails, listed, answered⟩ := @listFolder_of_first env client folder world attempt first
  have complete := (listing_complete_iff serves (env.hashOrder_perm _) answered).mpr load
  have identified : ∀ mail ∈ mails, mail.elementId.isSome := by
    intro mail mem
    obtain ⟨id, isId⟩ := elementId_of_inFolder (inFolder_of_listed serves (env.hashOrder_perm _) answered mem)
    rw [isId]
    rfl
  intro mail id inFolder isId
  have current : id ∈ mails.filterMap Mail.elementId :=
    List.mem_filterMap.mpr ⟨mail, complete mail inFolder, isId⟩
  have upserted : id ∈ (listedMetas (listingEnv env client) world folder.id mails).map
      MailMetadata.elementId := by
    rw [elementIds_listedMetas identified]
    exact current
  obtain ⟨row, found, ⟨metadata, mem, _, rowFolder, _⟩, _⟩ :=
    find?_upsertBatch_of_mem world.localStore.mails upserted
  have metaFolder : metadata.folderId = folder.id := by
    obtain ⟨source, _, rfl⟩ := List.mem_map.mp mem
    rfl
  refine ⟨row, ?_, rowFolder.trans metaFolder⟩
  have diskWorks : (listingEnv env client).DiskOk := diskOk
  rw [find?_syncFolder_of_ok diskWorks listed]
  simp only [LocalStore.upsertMailMetadataBatch, found]
  simp [current]

end Answered

/-- A sync none of whose attempts reads the entries changes neither store. -/
theorem syncFolder_of_unanswered (fail : ∀ attempt ≤ maxRetries,
      (client.loadAll (world.tick + attempt) folder.entriesListId).isOk = false) :
    (syncFolder (listingEnv env client) folder world).2.store = world.store ∧
      (syncFolder (listingEnv env client) folder world).2.localStore = world.localStore := by
  have failed : (listFolder (listingEnv env client) folder world).1.isOk = false := by
    apply retry_fst_of_none
    intro attempt inTime
    exact (isOk_loadMailIdsForFolder _ _ _).trans (fail attempt inTime)
  cases answer : (listFolder (listingEnv env client) folder world).1 with
  | ok =>
    rw [answer] at failed
    cases failed
  | error message => exact syncFolder_of_error answer

/-- The loop ends with `all_ok` only when every sync returned. -/
theorem isOk_of_fullSyncLoop {shutdown : Nat → Bool} {folders : List FolderInfo} {allOk : Bool}
    (completed : (fullSyncLoop env shutdown folders allOk world).1 = some true) :
    allOk = true ∧ ∀ start ∈ syncStarts env folders world, (syncFolder env start.1 start.2).1.isOk = true := by
  induction folders generalizing allOk world with
  | nil => exact ⟨Option.some.inj completed, by simp [syncStarts]⟩
  | cons folder rest ih =>
    unfold fullSyncLoop at completed
    dsimp only at completed
    split at completed
    · cases completed
    · obtain ⟨bothOk, later⟩ := ih completed
      rw [Bool.and_eq_true] at bothOk
      refine ⟨bothOk.1, ?_⟩
      simp only [syncStarts, List.forall_mem_cons]
      exact ⟨bothOk.2, later⟩

end Forgets

/-- For every server, every pattern of failed requests and every disk. A listing
that returned has every existing mail of the folder exactly when no mail list with
such a mail failed to load. A sync leaves a complete folder in memory, and takes
nothing from a mail that is still in the folder, under the same condition on the
attempt it took its listing from; without such an attempt it changes nothing. The
full sync sets its marker only after every folder had such an attempt, and under
the condition every folder's complete list was stored. -/
theorem fullSync_keeps_iff_listsLoad (env : Env) {client : EntityClient} {server : MailServer}
    (serves : client.Serves server) :
    (∀ tick folder mails, loadMailIdsForFolder client (env.hashOrder tick) tick folder 0 = .ok mails →
      ((∀ mail, server.InFolder folder mail → mail ∈ mails) ↔ ListsLoad client server folder tick)) ∧
    (∀ folder world,
      let after := (syncFolder (listingEnv env client) folder world).2
      (∀ attempt, FirstAnswer client folder world.tick attempt → (HoldsFolder server folder after ↔
          ListsLoad client server folder (world.tick + attempt)) ∧
        (ListsLoad client server folder (world.tick + attempt) → RemovesNothing server folder world after)) ∧
      ((∀ attempt ≤ maxRetries, (client.loadAll (world.tick + attempt) folder.entriesListId).isOk = false) →
        after.store = world.store ∧ after.localStore = world.localStore)) ∧
    (∀ shutdown folders world,
      (fullSyncLoop (listingEnv env client) shutdown folders true world).1 = some true →
      ∀ start ∈ syncStarts (listingEnv env client) folders world,
        let after := (syncFolder (listingEnv env client) start.1 start.2).2
        ∃ attempt, FirstAnswer client start.1 start.2.tick attempt ∧ (HoldsFolder server start.1 after ↔
            ListsLoad client server start.1 (start.2.tick + attempt)) ∧
          (env.DiskOk → ListsLoad client server start.1 (start.2.tick + attempt) →
            HasRows server start.1 after)) := by
  refine ⟨fun tick folder mails answered =>
    listing_complete_iff serves (env.hashOrder_perm tick) answered, fun folder world => ?_, ?_⟩
  · exact ⟨fun attempt first => ⟨holdsFolder_syncFolder_iff serves first,
      removesNothing_syncFolder serves first⟩, syncFolder_of_unanswered⟩
  · intro shutdown folders world completed start mem
    obtain ⟨attempt, first⟩ := exists_firstAnswer ((isOk_of_fullSyncLoop completed).2 start mem)
    exact ⟨attempt, first, holdsFolder_syncFolder_iff serves first, hasRows_syncFolder serves first⟩

/-! ## A folder with mails of two lists -/

/-- A folder that refers to one mail in each of two mail lists. -/
def twoLists : MailServer where
  entries _ := [⟨⟨⟨"list1", "m1"⟩⟩, some "e1"⟩, ⟨⟨⟨"list2", "m2"⟩⟩, some "e2"⟩]
  mails ref :=
    if ref = ⟨"list1", "m1"⟩ ∨ ref = ⟨"list2", "m2"⟩ then
      some { sampleMail ref.elementId with id := some ref }
    else none
  mails_id ref mail found := by
    split at found <;> cases found
    rfl

/-- A client that serves it, but for the mail lists that fail. -/
def twoListsClient (fails : String → Bool) : EntityClient where
  loadAll _ listId := .ok (twoLists.entries listId)
  loadRange _ listId _ count := .ok ((twoLists.entries listId).take count)
  loadMultiple _ listId ids :=
    if fails listId then .error .restClient
    else .ok (ids.filterMap fun id => twoLists.mails ⟨listId, id⟩)
  errorText _ := "offline"

theorem twoListsClient_serves (fails : String → Bool) : (twoListsClient fails).Serves twoLists where
  loadAll _ _ _ answered := (Except.ok.inj answered).symm
  loadMultiple _ listId ids batch answered mail := by
    simp only [twoListsClient] at answered
    split at answered <;> cases answered
    exact List.mem_filterMap

/-- The bridge with both mails synced, cached and indexed. -/
def twoListsWorld : World :=
  let mails := [⟨"list1", "m1"⟩, ⟨"list2", "m2"⟩].filterMap twoLists.mails
  let world := sampleWorld [sampleFolder "inbox" "entries"]
    [("inbox", mails.zipIdx.map fun row => ⟨row.1, true, row.2 + 1, false⟩)]
  { world with
    localStore := (["m1", "m2"].foldl (fun store id => (store.writeEml id "text").indexBody id "text")
      world.localStore) }

/-- Both lists load: the sync of the folder removes nothing. -/
theorem fullSync_keeps_two_lists :
    let env := quietEnv (offlineBackend [])
    let client := twoListsClient fun _ => false
    let folder := sampleFolder "inbox" "entries"
    RemovesNothing twoLists folder twoListsWorld
      (syncFolder (listingEnv env client) folder twoListsWorld).2 := by
  intro env client folder
  have first : FirstAnswer client folder twoListsWorld.tick 0 := ⟨by decide, rfl, by simp⟩
  have load : ListsLoad client twoLists folder (twoListsWorld.tick + 0) := fun _ _ _ => rfl
  exact ((fullSync_keeps_iff_listsLoad env (twoListsClient_serves _)).2.1 folder
    twoListsWorld).1 0 first |>.2 load

/-- The second list fails to load: the listing returns without its mail, the sync
succeeds and takes the mail from memory, table, body files and index, and the full
sync sets its marker. -/
theorem fullSync_forgets_failed_list :
    let env := listingEnv (quietEnv (offlineBackend [])) (twoListsClient (· = "list2"))
    let folder := sampleFolder "inbox" "entries"
    let after := (syncFolder env folder twoListsWorld).2
    (twoListsClient (· = "list2")).Serves twoLists ∧
      (∃ mail, twoLists.InFolder folder mail ∧ mail.elementId = some "m2") ∧
      (env.backend.loadMailIdsForFolder 0 folder).toOption.map
        (fun mails => mails.map Mail.elementId) = some [some "m1"] ∧
      (syncFolder env folder twoListsWorld).1 = .ok () ∧
      ((twoListsWorld.store.getFolder "inbox").map StoredMail.elementId = [some "m1", some "m2"] ∧
        (after.store.getFolder "inbox").map StoredMail.elementId = [some "m1"]) ∧
      (twoListsWorld.localStore.hasRow "m2" ∧ ¬ after.localStore.hasRow "m2") ∧
      (twoListsWorld.localStore.hasEml "m2" ∧ ¬ after.localStore.hasEml "m2") ∧
      (twoListsWorld.localStore.indexed "m2" ∧ ¬ after.localStore.indexed "m2") ∧
      (fullSync env (fun _ => false) [folder] twoListsWorld).localStore.getMeta fullMetadataMarker =
        some "1" := by
  intro env folder after
  refine ⟨twoListsClient_serves _, ⟨_, ⟨⟨⟨⟨"list2", "m2"⟩⟩, some "e2"⟩, ?_, rfl⟩, rfl⟩, ?_⟩
  · exact List.mem_cons_of_mem _ List.mem_cons_self
  · decide +kernel

end TutaBridge.Runs
