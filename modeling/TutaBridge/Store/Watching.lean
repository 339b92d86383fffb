import TutaBridge.Store.MailStore

/-!
# What the watchers of the store learn

Every change of what the folders list draws a new generation, which is what the prefetch
loop and the IMAP sessions wait for. An operation that draws none leaves every list of mails
and the folder list as they were; of a stored mail only its flags may change.
-/

namespace TutaBridge.Store

open TutaBridge.Std Tuta

variable {store : MailStore} (folderId elementId : String)

/-- An operation on the shared store. The last two stand for the body cache and the
cooldowns, which have no watchers. -/
inductive MailOp where
  | setFolderList (folders : List FolderInfo)
  | setFolder (folderId : String) (mails : List StoredMail)
  | refreshMailInPlace (mail : Mail)
  | removeMailFromFolder (folderId elementId : String)
  | upsertMailInFolder (folderId : String) (stored : StoredMail)
  | pruneUnknownFolders (known : List String)
  | removeMailEverywhere (elementId : String)
  | updateCompleteMail (folderId elementId : String) (entry : BodyEntry)
  | changeBodies (bodies : BodyCache)
  | changeCooldowns (cooldowns : Dict String Nat)

def MailOp.apply (store : MailStore) : MailOp → MailStore
  | .setFolderList folders => store.setFolderList folders
  | .setFolder folderId mails => store.setFolder folderId mails
  | .refreshMailInPlace mail => store.refreshMailInPlace mail
  | .removeMailFromFolder folderId elementId => (store.removeMailFromFolder folderId elementId).2
  | .upsertMailInFolder folderId stored => store.upsertMailInFolder folderId stored
  | .pruneUnknownFolders known => (store.pruneUnknownFolders known).2
  | .removeMailEverywhere elementId => store.removeMailEverywhere elementId
  | .updateCompleteMail folderId elementId entry =>
    store.updateCompleteMail folderId elementId entry
  | .changeBodies bodies => { store with bodies := bodies }
  | .changeCooldowns cooldowns => { store with bodyFetchCooldown := cooldowns }

namespace MailStore

/-- The folders list the same mails, and no watcher is told otherwise. -/
structure SameListing (before after : MailStore) : Prop where
  folderList : after.folderList = before.folderList
  mails : ∀ folderId, (after.getFolder folderId).map StoredMail.mail =
    (before.getFolder folderId).map StoredMail.mail
  generation : after.generation = before.generation

/-- The watchers are told of a change, or there is none that concerns them. -/
def Watched (before after : MailStore) : Prop :=
  before.generation < after.generation ∨ SameListing before after

/-- No generation was drawn that the counter has not counted. -/
def Counted (store : MailStore) : Prop := store.generation ≤ store.genCounter

theorem SameListing.refl (store : MailStore) : SameListing store store := ⟨rfl, fun _ => rfl, rfl⟩

theorem bumpGeneration_generation {store after : MailStore} (counted : store.Counted)
    (drawn : after.genCounter = store.genCounter) : store.generation < after.bumpGeneration.generation := by
  have bound : store.generation ≤ store.genCounter := counted
  show store.generation < after.genCounter + 1
  rw [drawn]
  exact Nat.lt_succ_of_le bound

theorem counted_bumpGeneration (store : MailStore) : store.bumpGeneration.Counted :=
  Nat.le_refl _

theorem sameListing_markComplete (store : MailStore) :
    SameListing store (store.markComplete folderId elementId) := by
  refine ⟨?_, fun other => ?_, ?_⟩
  · unfold markComplete
    split <;> rfl
  · rw [getFolder_markComplete]
    split
    next same =>
      subst same
      exact map_modifyFirst StoredMail.mail fun _ _ => rfl
    next => rfl
  · unfold markComplete
    split <;> rfl

theorem genCounter_markComplete (store : MailStore) :
    (store.markComplete folderId elementId).genCounter = store.genCounter := by
  unfold markComplete
  split <;> rfl

theorem sameListing_publishBody (elementId : String) (entry : BodyEntry) (store : MailStore) :
    SameListing store (store.publishBody elementId entry) := ⟨rfl, fun _ => rfl, rfl⟩

/-- A mail that is nowhere is in no list. -/
theorem absent_of_nowhere {elementId : String}
    (nowhere : ¬ store.isMailAnywhere elementId = true) (folderId : String) :
    ∀ stored ∈ store.getFolder folderId, stored.elementId ≠ some elementId :=
  fun stored mem same => nowhere (isMailAnywhere_iff.mpr ⟨folderId, stored, mem, same⟩)

theorem modifyFirst_of_absent {elementId : String} {change : StoredMail → StoredMail}
    {mails : List StoredMail} (absent : ∀ stored ∈ mails, stored.elementId ≠ some elementId) :
    modifyFirst elementId change mails = mails := by
  induction mails with
  | nil => rfl
  | cons head rest ih =>
    obtain ⟨here, later⟩ := List.forall_mem_cons.mp absent
    rw [modifyFirst, if_neg here, ih later]

theorem watched_refreshMailInPlace (mail : Mail) (counted : store.Counted) :
    Watched store (store.refreshMailInPlace mail) := by
  cases identified : mail.elementId with
  | none =>
    simp only [refreshMailInPlace, identified]
    exact .inr (.refl store)
  | some elementId =>
    by_cases anywhere : store.isMailAnywhere elementId = true
    · refine .inl ?_
      simp only [refreshMailInPlace, identified, if_pos anywhere]
      exact bumpGeneration_generation counted rfl
    · refine .inr ⟨folderList_refreshMailInPlace mail store, fun folderId => ?_, ?_⟩
      · rw [getFolder_refreshMailInPlace identified,
          modifyFirst_of_absent (absent_of_nowhere anywhere folderId)]
      · simp only [refreshMailInPlace, identified, if_neg anywhere]

theorem watched_removeMailFromFolder (counted : store.Counted) :
    Watched store (store.removeMailFromFolder folderId elementId).2 := by
  cases found : store.folders.get? folderId with
  | none =>
    simp only [removeMailFromFolder, found]
    exact .inr (.refl store)
  | some mails =>
    by_cases shorter : (without elementId mails).length ≠ mails.length
    · refine .inl ?_
      simp only [removeMailFromFolder, found, if_pos shorter]
      exact bumpGeneration_generation counted rfl
    · refine .inr ⟨folderList_removeMailFromFolder _ _ store, fun other => ?_, ?_⟩
      · have all : without elementId mails = mails :=
          List.filter_sublist.eq_of_length (not_not.mp shorter)
        have isFolder : store.getFolder folderId = mails := by
          rw [getFolder, found]
          rfl
        rw [getFolder_removeMailFromFolder]
        split
        next same => rw [same, isFolder, all]
        next => rfl
      · simp only [removeMailFromFolder, found, if_neg shorter]

theorem watched_pruneUnknownFolders (known : List String)
    (counted : store.Counted) : Watched store (store.pruneUnknownFolders known).2 := by
  by_cases nothing : (store.folders.keys.filter fun folderId => folderId ∉ known).isEmpty = true
  · have allKnown : ∀ folderId ∈ store.folders.keys, folderId ∈ known := by
      intro folderId mem
      have kept := List.filter_eq_nil_iff.mp (List.isEmpty_iff.mp nothing) folderId mem
      simpa using kept
    refine .inr ⟨?_, fun folderId => ?_, ?_⟩
    · simp only [pruneUnknownFolders, if_pos nothing]
    · rw [getFolder_pruneUnknownFolders]
      split
      next => rfl
      next unknown =>
        have absent : folderId ∉ store.folders.keys := fun mem => unknown (allKnown folderId mem)
        rw [List.eq_nil_iff_forall_not_mem.mpr fun stored mem =>
          absent (mem_keys_of_mem_getFolder mem)]
    · simp only [pruneUnknownFolders, if_pos nothing]
  · refine .inl ?_
    simp only [pruneUnknownFolders, if_neg nothing]
    exact bumpGeneration_generation counted rfl

theorem watched_removeMailEverywhere (elementId : String)
    (counted : store.Counted) : Watched store (store.removeMailEverywhere elementId) := by
  by_cases anywhere : store.isMailAnywhere elementId = true
  · refine .inl ?_
    simp only [removeMailEverywhere, if_pos anywhere]
    exact bumpGeneration_generation counted rfl
  · refine .inr ⟨folderList_removeMailEverywhere elementId store, fun folderId => ?_, ?_⟩
    · rw [getFolder_removeMailEverywhere, without_of_absent (absent_of_nowhere anywhere folderId)]
    · simp only [removeMailEverywhere, if_neg anywhere]

/-- The watchers of the store learn of every operation that concerns them. -/
theorem watched_apply (op : MailOp) (counted : store.Counted) : Watched store (op.apply store) := by
  cases op with
  | setFolderList folders => exact .inl (bumpGeneration_generation counted rfl)
  | setFolder folderId mails => exact .inl (bumpGeneration_generation counted rfl)
  | refreshMailInPlace mail => exact watched_refreshMailInPlace mail counted
  | removeMailFromFolder folderId elementId => exact watched_removeMailFromFolder _ _ counted
  | upsertMailInFolder folderId stored =>
    simp only [MailOp.apply, upsertMailInFolder]
    split
    · exact .inr (.refl store)
    · exact .inl (bumpGeneration_generation counted rfl)
  | pruneUnknownFolders known => exact watched_pruneUnknownFolders known counted
  | removeMailEverywhere elementId => exact watched_removeMailEverywhere elementId counted
  | updateCompleteMail folderId elementId entry =>
    have marked := sameListing_markComplete folderId elementId store
    exact .inr ⟨marked.folderList, marked.mails, marked.generation⟩
  | changeBodies bodies => exact .inr ⟨rfl, fun _ => rfl, rfl⟩
  | changeCooldowns cooldowns => exact .inr ⟨rfl, fun _ => rfl, rfl⟩

/-- No operation draws a generation without counting it. -/
theorem counted_apply (op : MailOp) (counted : store.Counted) : (op.apply store).Counted := by
  cases op with
  | setFolderList folders => exact counted_bumpGeneration _
  | setFolder folderId mails => exact counted_bumpGeneration _
  | refreshMailInPlace mail =>
    simp only [MailOp.apply, refreshMailInPlace]
    split
    · exact counted
    · split
      · exact counted_bumpGeneration _
      · exact counted
  | removeMailFromFolder folderId elementId =>
    simp only [MailOp.apply, removeMailFromFolder]
    split
    · exact counted
    · split
      · exact counted_bumpGeneration _
      · exact counted
  | upsertMailInFolder folderId stored =>
    simp only [MailOp.apply, upsertMailInFolder]
    split
    · exact counted
    · exact counted_bumpGeneration _
  | pruneUnknownFolders known =>
    simp only [MailOp.apply, pruneUnknownFolders]
    split
    · exact counted
    · exact counted_bumpGeneration _
  | removeMailEverywhere elementId =>
    simp only [MailOp.apply, removeMailEverywhere]
    split
    · exact counted_bumpGeneration _
    · exact counted
  | updateCompleteMail folderId elementId entry =>
    have marked := sameListing_markComplete folderId elementId store
    have same := genCounter_markComplete folderId elementId store
    show (store.markComplete folderId elementId).generation ≤
      (store.markComplete folderId elementId).genCounter + 1
    rw [marked.generation, same]
    exact Nat.le_succ_of_le counted
  | changeBodies bodies => exact counted
  | changeCooldowns cooldowns => exact counted

end MailStore

end TutaBridge.Store
