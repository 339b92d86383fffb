import TutaBridge.Events.HandlerFacts

/-!
# UIDs within one run

The UID a client sees lives in memory, the counter it comes from on disk. Every
operation that changes a folder keeps the folder's UIDs distinct, nonzero and
below the counter, and stamps a mail that enters with the counter's value.
-/

namespace TutaBridge.Runs

open TutaBridge.Std Tuta Store Bridge Sync
open Events

/-- The operations that change what a folder holds or which rows it has. -/
inductive FolderOp where
  | assignUidAndUpsert (target : FolderInfo) (mailEid : String) (stored : StoredMail)
  | syncFolder (folder : FolderInfo)
  | removeMailFromFolder (folderId elementId : String)
  | removeMailEverywhere (elementId : String)
  | pruneUnknownFolders (known : List String)
  | deleteFolderMails (folderId : String)
deriving DecidableEq

def FolderOp.apply (env : Env) (world : World) : FolderOp → World
  | .assignUidAndUpsert target mailEid stored =>
    Events.assignUidAndUpsert env target mailEid stored world
  | .syncFolder folder => (Sync.syncFolder env folder world).2
  | .removeMailFromFolder folderId elementId =>
    world.mapStore fun store => (store.removeMailFromFolder folderId elementId).2
  | .removeMailEverywhere elementId => world.mapStore (·.removeMailEverywhere elementId)
  | .pruneUnknownFolders known => world.mapStore fun store => (store.pruneUnknownFolders known).2
  | .deleteFolderMails folderId =>
    world.write env fun store => (store.deleteFolderMails folderId).2

/-- The state after a run of operations. -/
def runOps (env : Env) (world : World) (run : List FolderOp) : World :=
  run.foldl (FolderOp.apply env) world

/-- Distinct element ids, and UIDs that are distinct, nonzero and below the
counter. -/
structure UidsBelow (mails : List StoredMail) (nextUid : Nat) : Prop where
  elementIds : (mails.filterMap StoredMail.elementId).Nodup
  uids : (mails.map StoredMail.uid).Nodup
  nonzero : ∀ stored ∈ mails, stored.uid ≠ 0
  below : ∀ stored ∈ mails, stored.uid < nextUid

/-- The invariant of a folder: its mails against its counter. -/
def UidsSound (world : World) (folderId : String) : Prop :=
  UidsBelow (world.store.getFolder folderId) (world.localStore.nextUid folderId)

namespace UidsBelow

variable {mails fewer : List StoredMail} {nextUid : Nat}

theorem mono (sound : UidsBelow mails nextUid) {later : Nat} (grown : nextUid ≤ later) : UidsBelow mails later :=
  { sound with below := fun stored mem => (sound.below stored mem).trans_le grown }

/-- Rewriting one mail to a UID the list does not have keeps the UIDs distinct. -/
theorem nodup_map_modifyFirst {stored : StoredMail} {elementId : String} {mails : List StoredMail}
    (distinct : (mails.map StoredMail.uid).Nodup) (fresh : ∀ other ∈ mails, other.uid ≠ stored.uid) :
    ((MailStore.modifyFirst elementId (fun _ => stored) mails).map StoredMail.uid).Nodup := by
  induction mails with
  | nil => exact List.nodup_nil
  | cons head rest ih =>
    rw [List.map_cons, List.nodup_cons] at distinct
    unfold MailStore.modifyFirst
    split
    · rw [List.map_cons, List.nodup_cons]
      refine ⟨?_, distinct.2⟩
      intro inRest
      obtain ⟨other, mem, same⟩ := List.mem_map.mp inRest
      exact fresh other (List.mem_cons_of_mem _ mem) same
    · rw [List.map_cons, List.nodup_cons]
      refine ⟨?_, ih distinct.2
        fun other mem => fresh other (List.mem_cons_of_mem _ mem)⟩
      intro inRest
      obtain ⟨other, mem, same⟩ := List.mem_map.mp inRest
      rcases MailStore.mem_modifyFirst_imp mem with kept | ⟨_, _, _, rfl⟩
      · exact distinct.1 (List.mem_map.mpr ⟨other, kept, same⟩)
      · exact fresh head List.mem_cons_self same.symm

/-- A folder has one copy of a mail. -/
theorem eq_of_elementId (sound : UidsBelow mails nextUid) {left right : StoredMail} {elementId : String}
    (leftMember : left ∈ mails) (rightMember : right ∈ mails)
    (leftId : left.elementId = some elementId) (rightId : right.elementId = some elementId) : left = right := by
  have distinct := sound.elementIds
  clear sound
  induction mails with
  | nil => simp at leftMember
  | cons head rest ih =>
    have inRest : ∀ {stored : StoredMail}, stored ∈ rest → stored.elementId = some elementId →
        elementId ∈ rest.filterMap StoredMail.elementId :=
      fun mem same => List.mem_filterMap.mpr ⟨_, mem, same⟩
    rcases List.mem_cons.mp leftMember with rfl | leftLater
    · rw [List.filterMap_cons_some leftId, List.nodup_cons] at distinct
      rcases List.mem_cons.mp rightMember with rfl | rightLater
      · rfl
      · exact absurd (inRest rightLater rightId) distinct.1
    · rcases List.mem_cons.mp rightMember with rfl | rightLater
      · rw [List.filterMap_cons_some rightId, List.nodup_cons] at distinct
        exact absurd (inRest leftLater leftId) distinct.1
      · exact ih leftLater rightLater
          (distinct.sublist ((List.sublist_cons_self head rest).filterMap _))

/-- Soundness is about the ids and the UIDs alone, and part of them is sound as well. -/
theorem of_stamps {others : List StoredMail} (sound : UidsBelow mails nextUid)
    (part : (others.map fun stored => (stored.elementId, stored.uid)).Sublist
      (mails.map fun stored => (stored.elementId, stored.uid))) : UidsBelow others nextUid := by
  have uids : (others.map StoredMail.uid).Sublist (mails.map StoredMail.uid) := by
    simpa [List.map_map, Function.comp_def] using part.map Prod.snd
  have ids : (others.filterMap StoredMail.elementId).Sublist (mails.filterMap StoredMail.elementId) := by
    simpa [List.filterMap_map, Function.comp_def] using part.filterMap Prod.fst
  have uidOf : ∀ stored ∈ others, ∃ old ∈ mails, old.uid = stored.uid := fun stored mem =>
    List.mem_map.mp (uids.subset (List.mem_map.mpr ⟨stored, mem, rfl⟩))
  refine ⟨sound.elementIds.sublist ids, sound.uids.sublist uids, fun stored mem => ?_,
    fun stored mem => ?_⟩
  · obtain ⟨old, oldMember, equal⟩ := uidOf stored mem
    exact equal ▸ sound.nonzero old oldMember
  · obtain ⟨old, oldMember, equal⟩ := uidOf stored mem
    exact equal ▸ sound.below old oldMember

/-- A mail stamped with the counter's value may replace its old copy or join
the folder. -/
theorem upsertList {stored : StoredMail} {elementId : String} (sound : UidsBelow mails nextUid)
    (identified : stored.elementId = some elementId) (stamped : stored.uid = nextUid) (positive : nextUid ≠ 0) :
    UidsBelow (MailStore.upsertList stored elementId mails) (nextUid + 1) := by
  have old : ∀ other ∈ mails, other.uid ≠ stored.uid := by
    intro other mem same
    have := sound.below other mem
    omega
  constructor
  · unfold MailStore.upsertList
    split
    next present =>
      have sameIds : (MailStore.modifyFirst elementId (fun _ => stored) mails).map
          StoredMail.elementId = mails.map StoredMail.elementId :=
        MailStore.map_modifyFirst _ fun other isOld => identified.trans isOld.symm
      have filtered : ∀ list : List StoredMail, list.filterMap StoredMail.elementId =
          (list.map StoredMail.elementId).reduceOption := by
        intro list
        exact (List.filterMap_map : (list.map StoredMail.elementId).filterMap id = _).symm
      rw [filtered, sameIds, ← filtered]
      exact sound.elementIds
    next absent =>
      rw [List.filterMap_append]
      refine sound.elementIds.append (by simp [identified]) ?_
      rw [List.disjoint_left]
      intro id inFolder isNew
      obtain ⟨other, mem, otherId⟩ := List.mem_filterMap.mp inFolder
      have isElementId : id = elementId := by simpa [identified] using isNew
      subst isElementId
      exact absent (List.any_eq_true.mpr ⟨other, mem, by simpa using otherId⟩)
  · unfold MailStore.upsertList
    split
    next => exact nodup_map_modifyFirst sound.uids old
    next =>
      rw [List.map_append]
      refine sound.uids.append (List.nodup_singleton _) ?_
      rw [List.disjoint_left]
      intro uid inFolder isNew
      obtain ⟨other, mem, otherUid⟩ := List.mem_map.mp inFolder
      exact old other mem (otherUid.trans (by simpa using isNew))
  · intro other mem
    rcases MailStore.mem_upsertList_imp mem with rfl | earlier
    · rwa [stamped]
    · exact sound.nonzero other earlier
  · intro other mem
    rcases MailStore.mem_upsertList_imp mem with rfl | earlier
    · omega
    · have := sound.below other earlier
      omega

end UidsBelow

/-! ## One operation -/

section Step

variable {env : Env} {world : World} {folderId : String}

/-- The listed mails of a sync, when their ids are distinct. -/
theorem listedMails_uidsBelow {newMails : List Mail} (sound : UidsSound world folderId)
    (positive : world.localStore.nextUid folderId ≠ 0) (distinct : DistinctIds newMails)
    (fits : world.localStore.nextUid folderId +
      (newElementIds (world.store.getFolder folderId) newMails).length ≤ 2 ^ 32) :
    UidsBelow (listedMails world folderId newMails) (world.localStore.nextUid folderId +
        (newElementIds (world.store.getFolder folderId) newMails).length) := by
  -- a new mail's UID is its counter value, which fits into 32 bits
  have cases : ∀ mail ∈ newMails, ∃ elementId, mail.elementId = some elementId ∧
      ((∃ stored ∈ world.store.getFolder folderId, stored.elementId = some elementId ∧
          syncedUid (world.store.getFolder folderId) (listedUids world folderId newMails) mail = stored.uid) ∨
        ∃ index, (newElementIds (world.store.getFolder folderId) newMails)[index]? = some elementId ∧
          index < (newElementIds (world.store.getFolder folderId) newMails).length ∧
          syncedUid (world.store.getFolder folderId) (listedUids world folderId newMails) mail =
            world.localStore.nextUid folderId + index) := by
    intro mail mem
    obtain ⟨elementId, identified⟩ := Option.isSome_iff_exists.mp (distinct.1 mail mem)
    refine ⟨elementId, identified, ?_⟩
    rcases syncedUid_cases world folderId mem identified with
      kept | ⟨_, index, atIndex, uid⟩
    · exact .inl kept
    · obtain ⟨inRange, _⟩ := List.getElem?_eq_some_iff.mp atIndex
      refine .inr ⟨index, atIndex, inRange, ?_⟩
      rw [uid, Nat.mod_eq_of_lt (by omega)]
  have uidInjective : ∀ left ∈ newMails, ∀ right ∈ newMails,
      syncedUid (world.store.getFolder folderId) (listedUids world folderId newMails) left =
        syncedUid (world.store.getFolder folderId) (listedUids world folderId newMails) right →
      left = right := by
    intro left leftMember right rightMember sameUid
    obtain ⟨leftId, leftIdentified, leftCase⟩ := cases left leftMember
    obtain ⟨rightId, rightIdentified, rightCase⟩ := cases right rightMember
    have sameId : leftId = rightId := by
      rcases leftCase with ⟨stored, inFolder, storedId, uid⟩ | ⟨index, atIndex, _, uid⟩ <;>
        rcases rightCase with ⟨other, otherIn, otherId, otherUid⟩ | ⟨place, atPlace, _, otherUid⟩
      · have same : stored = other := List.inj_on_of_nodup_map sound.uids inFolder otherIn
          (by rw [← uid, ← otherUid, sameUid])
        subst same
        exact Option.some.inj (storedId.symm.trans otherId)
      · have := sound.below stored inFolder
        omega
      · have := sound.below other otherIn
        omega
      · have samePlace : index = place := by omega
        subst samePlace
        exact Option.some.inj (atIndex.symm.trans atPlace)
    exact List.inj_on_of_nodup_map distinct.2 leftMember rightMember
      (by rw [leftIdentified, rightIdentified, sameId])
  constructor
  · have ids : (listedMails world folderId newMails).filterMap StoredMail.elementId =
        newMails.filterMap Mail.elementId := by
      simp [listedMails, List.filterMap_map]
    rw [ids]
    exact nodup_filterMap_of_distinctIds distinct
  · rw [listedMails, List.map_map]
    refine distinct.2.of_map.map_on ?_
    intro left leftMember right rightMember sameUid
    simp only [Function.comp_apply, syncedMail_uid] at sameUid
    exact uidInjective left leftMember right rightMember sameUid
  · intro listed mem
    obtain ⟨mail, mailMember, rfl⟩ := List.mem_map.mp mem
    rw [syncedMail_uid]
    obtain ⟨_, _, ⟨stored, inFolder, _, uid⟩ | ⟨index, _, _, uid⟩⟩ := cases mail mailMember
    · rw [uid]
      exact sound.nonzero stored inFolder
    · omega
  · intro listed mem
    obtain ⟨mail, mailMember, rfl⟩ := List.mem_map.mp mem
    rw [syncedMail_uid]
    obtain ⟨_, _, ⟨stored, inFolder, _, uid⟩ | ⟨index, _, inRange, uid⟩⟩ := cases mail mailMember
    · have := sound.below stored inFolder
      omega
    · omega

/-- What an operation may do to a folder: the counter grows, and every mail the
folder has afterwards keeps its UID or has one the counter had not reached. -/
structure UidStep (before after : World) (folderId : String) : Prop where
  counter : before.localStore.nextUid folderId ≤ after.localStore.nextUid folderId
  sound : after.localStore.nextUid folderId ≤ 2 ^ 32 → UidsSound before folderId →
    0 < before.localStore.nextUid folderId → UidsSound after folderId
  stamped : after.localStore.nextUid folderId ≤ 2 ^ 32 → ∀ stored ∈ after.store.getFolder folderId,
      (∃ old ∈ before.store.getFolder folderId, old.elementId = stored.elementId ∧ old.uid = stored.uid) ∨
      before.localStore.nextUid folderId ≤ stored.uid

/-- An operation that removes mails and changes versions of mails. -/
theorem UidStep.of_stamps {before after : World} {folderId : String}
    (counter : before.localStore.nextUid folderId ≤ after.localStore.nextUid folderId)
    (part : ((after.store.getFolder folderId).map fun stored => (stored.elementId, stored.uid)).Sublist
      ((before.store.getFolder folderId).map fun stored => (stored.elementId, stored.uid))) :
    UidStep before after folderId where
  counter := counter
  sound _ sound _ := (UidsBelow.of_stamps sound part).mono counter
  stamped _ stored mem := by
    obtain ⟨old, oldMember, equal⟩ := List.mem_map.mp (part.subset (List.mem_map.mpr ⟨stored, mem, rfl⟩))
    exact .inl ⟨old, oldMember, congrArg Prod.fst equal, congrArg Prod.snd equal⟩

/-- An operation that only removes mails and leaves the counters alone. -/
theorem UidStep.of_sublist {before after : World} {folderId : String}
    (counter : after.localStore.nextUid folderId = before.localStore.nextUid folderId)
    (removed : (after.store.getFolder folderId).Sublist (before.store.getFolder folderId)) :
    UidStep before after folderId := .of_stamps counter.ge (removed.map _)

theorem UidStep.refl (world : World) (folderId : String) : UidStep world world folderId :=
  .of_sublist rfl (List.Sublist.refl _)

theorem UidStep.trans {first second third : World} {folderId : String}
    (earlier : UidStep first second folderId) (later : UidStep second third folderId) :
    UidStep first third folderId where
  counter := earlier.counter.trans later.counter
  sound fits sound started := later.sound fits
    (earlier.sound (later.counter.trans fits) sound started) (started.trans_le earlier.counter)
  stamped fits stored mem := by
    rcases later.stamped fits stored mem with ⟨old, oldMember, sameId, sameUid⟩ | fresh
    · rcases earlier.stamped (later.counter.trans fits) old oldMember
        with ⟨older, olderMember, olderId, olderUid⟩ | fresh
      · exact .inl ⟨older, olderMember, olderId.trans sameId, olderUid.trans sameUid⟩
      · exact .inr (sameUid ▸ fresh)
    · exact .inr (earlier.counter.trans fresh)

theorem uidStep_assignUidAndUpsert (diskOk : env.DiskOk) (target : FolderInfo) (mailEid : String)
    (stored : StoredMail) (world : World) (folderId : String) :
    UidStep world (Events.assignUidAndUpsert env target mailEid stored world) folderId := by
  have counter := nextUid_assignUidAndUpsert diskOk target mailEid stored world folderId
  have store := assignUidAndUpsert_store diskOk target mailEid stored world
  cases identified : stored.elementId with
  | none =>
    -- a mail without an id is not stored, but its UID is spent
    have unchanged : (Events.assignUidAndUpsert env target mailEid stored world).store = world.store := by
      rw [store]
      unfold MailStore.upsertMailInFolder
      split
      next => rfl
      next _ hasId => cases identified.symm.trans hasId
    refine ⟨by omega, fun _ sound _ => ?_, fun _ other mem => ?_⟩
    · unfold UidsSound
      rw [unchanged]
      exact sound.mono (by omega)
    · rw [unchanged] at mem
      exact .inl ⟨other, mem, rfl, rfl⟩
  | some elementId =>
    have folder := MailStore.getFolder_upsertMailInFolder
      { stored with uid := nextStamp world target.id } identified target.id folderId world.store
    rw [← store] at folder
    by_cases same : folderId = target.id
    · subst same
      rw [if_pos rfl] at folder counter
      refine ⟨by omega, fun fits sound positive => ?_, fun fits other mem => ?_⟩
      · have stamp : nextStamp world target.id = world.localStore.nextUid target.id :=
          Nat.mod_eq_of_lt (by omega)
        unfold UidsSound
        rw [folder, counter]
        exact UidsBelow.upsertList sound identified stamp (by omega)
      · have stamp : nextStamp world target.id = world.localStore.nextUid target.id :=
          Nat.mod_eq_of_lt (by omega)
        rw [folder] at mem
        rcases MailStore.mem_upsertList_imp mem with rfl | earlier
        · exact .inr stamp.ge
        · exact .inl ⟨other, earlier, rfl, rfl⟩
    · rw [if_neg same] at folder counter
      exact .of_sublist counter (by rw [folder])

theorem uidStep_syncFolder (diskOk : env.DiskOk) (lists : ListsDistinctIds env.backend)
    (folder : FolderInfo) (world : World) (folderId : String) :
    UidStep world (Sync.syncFolder env folder world).2 folderId := by
  cases listed : (listFolder env folder world).1 with
  | error message =>
    obtain ⟨store, localStore⟩ := syncFolder_of_error listed
    exact .of_sublist (by rw [localStore]) (by rw [store])
  | ok newMails =>
    have distinct := distinctIds_of_listFolder lists listed
    have counter := nextUid_syncFolder_of_ok diskOk listed folderId
    have mails := MailStore.getFolder_setFolder folder.id folderId
      (listedMails world folder.id newMails) world.store
    rw [← (syncFolder_of_ok diskOk listed).1] at mails
    by_cases same : folderId = folder.id
    · subst same
      rw [if_pos rfl] at counter mails
      refine ⟨by omega, fun fits sound positive => ?_, fun fits stored mem => ?_⟩
      · unfold UidsSound
        rw [mails, counter]
        exact listedMails_uidsBelow sound (by omega) distinct (by omega)
      · rw [mails] at mem
        obtain ⟨mail, mailMember, rfl⟩ := List.mem_map.mp mem
        obtain ⟨elementId, identified⟩ :=
          Option.isSome_iff_exists.mp (distinct.1 mail mailMember)
        rw [syncedMail_elementId, syncedMail_uid]
        rcases syncedUid_cases world folder.id mailMember identified
          with ⟨old, inFolder, oldId, uid⟩ | ⟨_, index, atIndex, uid⟩
        · exact .inl ⟨old, inFolder, oldId.trans identified.symm, uid.symm⟩
        · obtain ⟨inRange, _⟩ := List.getElem?_eq_some_iff.mp atIndex
          rw [uid, Nat.mod_eq_of_lt (by omega)]
          exact .inr (by omega)
    · rw [if_neg same] at counter mails
      exact .of_sublist counter (by rw [mails])

/-- Every operation is a step of the UID discipline, for every folder. -/
theorem uidStep_apply (diskOk : env.DiskOk) (lists : ListsDistinctIds env.backend) (op : FolderOp)
    (world : World) (folderId : String) : UidStep world (op.apply env world) folderId := by
  cases op with
  | assignUidAndUpsert target mailEid stored =>
    exact uidStep_assignUidAndUpsert diskOk target mailEid stored world folderId
  | syncFolder folder => exact uidStep_syncFolder diskOk lists folder world folderId
  | removeMailFromFolder source elementId =>
    refine .of_sublist rfl ?_
    simp only [FolderOp.apply, World.mapStore_store, MailStore.getFolder_removeMailFromFolder]
    split
    next same => exact same ▸ List.filter_sublist
    next => exact List.Sublist.refl _
  | removeMailEverywhere elementId =>
    refine .of_sublist rfl ?_
    simp only [FolderOp.apply, World.mapStore_store, MailStore.getFolder_removeMailEverywhere]
    exact List.filter_sublist
  | pruneUnknownFolders known =>
    refine .of_sublist rfl ?_
    simp only [FolderOp.apply, World.mapStore_store, MailStore.getFolder_pruneUnknownFolders]
    split
    · exact List.Sublist.refl _
    · exact List.nil_sublist _
  | deleteFolderMails folderId =>
    refine .of_sublist ?_ ?_
    · simp only [FolderOp.apply, World.write_localStore diskOk]
      rfl
    · simp only [FolderOp.apply, World.write_store]
      exact List.Sublist.refl _

end Step

/-! ## Runs -/

section Run

variable {env : Env} {world : World} {folderId : String}

theorem nextUid_runOps_le (diskOk : env.DiskOk) (lists : ListsDistinctIds env.backend)
    (world : World) (folderId : String) (run : List FolderOp) :
    world.localStore.nextUid folderId ≤ (runOps env world run).localStore.nextUid folderId := by
  induction run generalizing world with
  | nil => exact le_refl _
  | cons op rest ih =>
    exact (uidStep_apply diskOk lists op world folderId).counter.trans (ih _)

theorem runOps_append (env : Env) (world : World) (first second : List FolderOp) :
    runOps env world (first ++ second) = runOps env (runOps env world first) second :=
  List.foldl_append

/-- A run keeps a folder's UIDs sound while its counter stays in 32 bits. -/
theorem uidsSound_runOps (diskOk : env.DiskOk) (lists : ListsDistinctIds env.backend)
    (sound : UidsSound world folderId) (started : 0 < world.localStore.nextUid folderId) (run : List FolderOp)
    (fits : (runOps env world run).localStore.nextUid folderId ≤ 2 ^ 32) :
    UidsSound (runOps env world run) folderId := by
  induction run generalizing world with
  | nil => exact sound
  | cons op rest ih =>
    have step := uidStep_apply diskOk lists op world folderId
    have grows := nextUid_runOps_le diskOk lists (op.apply env world) folderId rest
    exact ih (step.sound (grows.trans fits) sound started) (started.trans_le step.counter) fits

end Run

/-- In every run of folder operations whose counter stays within 32 bits (it
starts at 1, so that is fewer than `2 ^ 32` allocations): the folder's ids are
distinct, its UIDs are distinct, nonzero and below the counter, the counter
never decreases, and a mail that enters the folder gets a UID above every UID
the folder had before in the run. -/
theorem folder_uids_increase {env : Env} (diskOk : env.DiskOk)
    (lists : ListsDistinctIds env.backend) {world : World} {folderId : String}
    (sound : UidsSound world folderId) (started : 0 < world.localStore.nextUid folderId) (run : List FolderOp)
    (fits : (runOps env world run).localStore.nextUid folderId ≤ 2 ^ 32) : (∀ first second, run = first ++ second →
      UidsSound (runOps env world first) folderId ∧ (runOps env world first).localStore.nextUid folderId ≤
          (runOps env world run).localStore.nextUid folderId) ∧
      ∀ first second third op elementId, run = first ++ second ++ op :: third →
        ∀ entered ∈ (runOps env world (first ++ second ++ [op])).store.getFolder folderId,
          entered.elementId = some elementId → ¬ (runOps env world (first ++ second)).store.Holds folderId elementId →
          ∀ old ∈ (runOps env world first).store.getFolder folderId, old.uid < entered.uid := by
  have atPrefix : ∀ first second, run = first ++ second → UidsSound (runOps env world first) folderId ∧
        (runOps env world first).localStore.nextUid folderId ≤
          (runOps env world run).localStore.nextUid folderId := by
    intro first second split
    have grows : (runOps env world first).localStore.nextUid folderId ≤
        (runOps env world run).localStore.nextUid folderId := by
      rw [split, runOps_append]
      exact nextUid_runOps_le diskOk lists _ folderId second
    exact ⟨uidsSound_runOps diskOk lists sound started first (grows.trans fits), grows⟩
  refine ⟨atPrefix, ?_⟩
  intro first second third op elementId split entered mem identified absent old oldMember
  have stepped : runOps env world (first ++ second ++ [op]) =
      op.apply env (runOps env world (first ++ second)) := runOps_append _ _ _ _
  have stays := (atPrefix (first ++ second ++ [op]) third (by simp [split])).2.trans fits
  rw [stepped] at mem stays
  have oldBelow := (atPrefix first (second ++ op :: third) (by simp [split])).1.below old oldMember
  have grows : (runOps env world first).localStore.nextUid folderId ≤
      (runOps env world (first ++ second)).localStore.nextUid folderId := by
    rw [runOps_append]
    exact nextUid_runOps_le diskOk lists _ folderId second
  rcases (uidStep_apply diskOk lists op _ folderId).stamped stays entered mem with
    ⟨before, inFolder, sameId, _⟩ | fresh
  · exact absurd ⟨before, inFolder, sameId.trans identified⟩ absent
  · omega

/-- An inbox with one mail, to which a create adds a second and a sync a third. -/
theorem folder_uids_increase_inbox :
    let env := quietEnv (listingBackend [] [sampleMail "a", sampleMail "b", sampleMail "c"])
    let world := sampleWorld [] [("inbox", [sampleStored "a" 1])]
    let run := [.assignUidAndUpsert (sampleFolder "inbox" "entries") "b" (sampleStored "b" 0),
      .syncFolder (sampleFolder "inbox" "entries"), .removeMailFromFolder "inbox" "a"]
    ((runOps env world run).store.getFolder "inbox").map StoredMail.uid = [2, 3] ∧
      UidsSound (runOps env world run) "inbox" ∧ (runOps env world run).localStore.nextUid "inbox" ≤
          (runOps env world run).localStore.nextUid "inbox" := by
  intro env world run
  have lists : ListsDistinctIds env.backend := by
    intro tick folder mails answered
    cases answered
    decide
  have sound : UidsSound world "inbox" := ⟨by decide, by decide, by decide, by decide⟩
  exact ⟨by decide, (folder_uids_increase (quietEnv_diskOk _) lists sound (by decide) run
    (by decide)).1 run [] (by simp)⟩

end TutaBridge.Runs
