import TutaBridge.Store.BodyCache

/-!
# The in-memory store

`MailStore` holds the mails of every folder, the folder list IMAP enumerates,
and the body cache. `generation` wakes sessions and the prefetch loop on a
change of membership, `detailsGeneration` on a body that landed; both draw from
`genCounter`.
-/

namespace TutaBridge.Store

open TutaBridge.Std Tuta

variable {store : MailStore} {stored : StoredMail} (known : List String)

/-- A mail in a folder, without its body. -/
structure StoredMail where
  mail : Mail
  bodyLoaded : Bool
  uid : Nat
  attachmentsPending : Bool
deriving DecidableEq, Repr

/-- The element id the store compares mails by. -/
def StoredMail.elementId (stored : StoredMail) : Option String := stored.mail.elementId

structure MailStore where
  folders : Dict String (List StoredMail)
  folderList : List FolderInfo
  generation : Nat
  detailsGeneration : Nat
  genCounter : Nat
  bodyFetchCooldown : Dict String Nat
  bodies : BodyCache
deriving DecidableEq

namespace MailStore

def new : MailStore :=
  ⟨.empty, [], 0, 0, 0, .empty, .withCapacity BodyCache.maxCacheBytes⟩

/-- Wake those who wait for a change. -/
def bumpGeneration (store : MailStore) : MailStore :=
  { store with genCounter := store.genCounter + 1, generation := store.genCounter + 1 }

def bumpDetailsGeneration (store : MailStore) : MailStore :=
  { store with genCounter := store.genCounter + 1, detailsGeneration := store.genCounter + 1 }

/-- The mails of a folder, none where it is unknown. -/
def getFolder (store : MailStore) (folderId : String) : List StoredMail :=
  (store.folders.get? folderId).getD []

/-- The first mail of a folder with the element id. -/
def mailInFolder (store : MailStore) (folderId elementId : String) : Option StoredMail :=
  (store.getFolder folderId).find? fun stored => stored.elementId = some elementId

def setFolderList (folders : List FolderInfo) (store : MailStore) : MailStore :=
  { store with folderList := folders }.bumpGeneration

/-- Replace the mails of a folder. -/
def setFolder (folderId : String) (mails : List StoredMail) (store : MailStore) : MailStore :=
  { store with folders := store.folders.set folderId mails }.bumpGeneration

/-- Rewrite the first mail with the element id. -/
def modifyFirst (elementId : String) (change : StoredMail → StoredMail) : List StoredMail → List StoredMail
  | [] => []
  | stored :: rest =>
    if stored.elementId = some elementId then change stored :: rest
    else stored :: modifyFirst elementId change rest

/-- Every mail but those with the element id. -/
def without (elementId : String) (mails : List StoredMail) : List StoredMail :=
  mails.filter fun stored => stored.elementId ≠ some elementId

/-- Whether some folder holds the mail. -/
def isMailAnywhere (store : MailStore) (elementId : String) : Bool :=
  store.folders.rows.any fun row => row.2.any fun stored => stored.elementId = some elementId

/-- Refresh a mail's metadata in every folder that holds it. -/
def refreshMailInPlace (mail : Mail) (store : MailStore) : MailStore :=
  match mail.elementId with
  | none => store
  | some elementId =>
    let refreshed := { store with
      folders := store.folders.mapValues (modifyFirst elementId fun stored => { stored with mail := mail }) }
    if store.isMailAnywhere elementId then refreshed.bumpGeneration else refreshed

/-- Search the folders in the order the hash map iterates them, and return the
first copy of the mail with the folder it was found in. -/
def findMailAnywhere (order : List String) (store : MailStore) (elementId : String) :
    Option (String × StoredMail) :=
  order.findSome? fun folderId =>
    (store.mailInFolder folderId elementId).map fun stored => (folderId, stored)

/-- Remove a mail from one folder, and say whether it was there. -/
def removeMailFromFolder (folderId elementId : String) (store : MailStore) : Bool × MailStore :=
  match store.folders.get? folderId with
  | none => (false, store)
  | some mails =>
    let kept := without elementId mails
    let removed := { store with folders := store.folders.set folderId kept }
    if kept.length ≠ mails.length then (true, removed.bumpGeneration) else (false, removed)

/-- Replace the folder's copy of the mail, or append it. -/
def upsertList (stored : StoredMail) (elementId : String) (mails : List StoredMail) : List StoredMail :=
  if mails.any fun other => other.elementId = some elementId then
    modifyFirst elementId (fun _ => stored) mails
  else mails ++ [stored]

/-- Put a mail in a folder, over the entry with its id. -/
def upsertMailInFolder (folderId : String) (stored : StoredMail) (store : MailStore) : MailStore :=
  match stored.elementId with
  | none => store
  | some elementId =>
    { store with
      folders := store.folders.set folderId
        (upsertList stored elementId (store.getFolder folderId)) }.bumpGeneration

/-- Drop the folders that are not known, and return their ids. -/
def pruneUnknownFolders (known : List String) (store : MailStore) : List String × MailStore :=
  let removed := store.folders.keys.filter fun folderId => folderId ∉ known
  let kept := { store with folders := store.folders.delete fun row => row.1 ∉ known }
  (removed, if removed.isEmpty then kept else kept.bumpGeneration)

/-- Drop a mail from every folder. -/
def removeMailEverywhere (elementId : String) (store : MailStore) : MailStore :=
  let removed := { store with folders := store.folders.mapValues (without elementId) }
  if store.isMailAnywhere elementId then removed.bumpGeneration else removed

/-- The folder half of `update_complete_mail`. -/
def markComplete (folderId elementId : String) (store : MailStore) : MailStore :=
  match store.folders.get? folderId with
  | none => store
  | some mails =>
    { store with
      folders := store.folders.set folderId (modifyFirst elementId
          (fun stored => { stored with bodyLoaded := true, attachmentsPending := false }) mails) }

/-- The cache half of `update_complete_mail`. -/
def publishBody (elementId : String) (entry : BodyEntry) (store : MailStore) : MailStore :=
  { store with bodies := store.bodies.insert elementId entry }.bumpDetailsGeneration

/-- Cache a body that was loaded. -/
def updateCompleteMail (folderId elementId : String) (entry : BodyEntry) (store : MailStore) :
    MailStore :=
  (store.markComplete folderId elementId).publishBody elementId entry

/-- `BODY_FETCH_COOLDOWN`, in milliseconds. -/
def bodyFetchCooldownMs : Nat := 30000

/-- Whether a recent body fetch of the mail failed; an elapsed entry is dropped. -/
def bodyFetchOnCooldown (elementId : String) (now : Nat) (store : MailStore) : Bool × MailStore :=
  match store.bodyFetchCooldown.get? elementId with
  | none => (false, store)
  | some deadline =>
    if now < deadline then (true, store)
    else (false, { store with bodyFetchCooldown := store.bodyFetchCooldown.erase elementId })

/-- Remember when the body could not be had. -/
def markBodyFetchFailed (elementId : String) (now : Nat) (store : MailStore) : MailStore :=
  { store with
    bodyFetchCooldown :=
      Dict.set (store.bodyFetchCooldown.delete fun row => row.2 ≤ now) elementId (now + bodyFetchCooldownMs) }

/-! ## Lists of mails -/

section Lists

variable {elementId : String} {change : StoredMail → StoredMail} {mails : List StoredMail}

theorem mem_without_iff :
    stored ∈ without elementId mails ↔ stored ∈ mails ∧ stored.elementId ≠ some elementId := by
  simp [without]

theorem mem_modifyFirst_imp (mem : stored ∈ modifyFirst elementId change mails) :
    stored ∈ mails ∨ ∃ old ∈ mails, old.elementId = some elementId ∧ stored = change old := by
  induction mails with
  | nil => simp [modifyFirst] at mem
  | cons head rest ih =>
    unfold modifyFirst at mem
    split at mem
    next same =>
      rcases List.mem_cons.mp mem with equal | later
      · exact .inr ⟨head, List.mem_cons_self, same, equal⟩
      · exact .inl (List.mem_cons_of_mem _ later)
    next =>
      rcases List.mem_cons.mp mem with equal | later
      · exact .inl (equal ▸ List.mem_cons_self)
      · rcases ih later with kept | ⟨old, oldMember, same, equal⟩
        · exact .inl (List.mem_cons_of_mem _ kept)
        · exact .inr ⟨old, List.mem_cons_of_mem _ oldMember, same, equal⟩

/-- A mail with another id is not touched. -/
theorem mem_modifyFirst_of_ne (mem : stored ∈ mails)
    (different : stored.elementId ≠ some elementId) : stored ∈ modifyFirst elementId change mails := by
  induction mails with
  | nil => simp at mem
  | cons head rest ih =>
    unfold modifyFirst
    rcases List.mem_cons.mp mem with rfl | later
    · simp [different]
    · split
      · exact List.mem_cons_of_mem _ later
      · exact List.mem_cons_of_mem _ (ih later)

/-- A rewrite that keeps a field keeps the list of that field. -/
theorem map_modifyFirst {β : Type} (field : StoredMail → β)
    (keeps : ∀ stored, stored.elementId = some elementId → field (change stored) = field stored) :
    (modifyFirst elementId change mails).map field = mails.map field := by
  induction mails with
  | nil => rfl
  | cons head rest ih =>
    unfold modifyFirst
    split
    next same => simp [keeps head same]
    next => simp [ih]

/-- The rewritten mail is in the list when some mail had the id. -/
theorem exists_mem_modifyFirst (change : StoredMail → StoredMail)
    (present : ∃ stored ∈ mails, stored.elementId = some elementId) :
    ∃ old ∈ mails, old.elementId = some elementId ∧ change old ∈ modifyFirst elementId change mails := by
  induction mails with
  | nil => simp at present
  | cons head rest ih =>
    unfold modifyFirst
    split
    next same => exact ⟨head, List.mem_cons_self, same, List.mem_cons_self⟩
    next different =>
      obtain ⟨stored, mem, same⟩ := present
      have later : stored ∈ rest := by
        rcases List.mem_cons.mp mem with rfl | later
        · exact absurd same different
        · exact later
      obtain ⟨old, oldMember, oldSame, rewritten⟩ := ih ⟨stored, later, same⟩
      exact ⟨old, List.mem_cons_of_mem _ oldMember, oldSame, List.mem_cons_of_mem _ rewritten⟩

theorem without_of_absent (absent : ∀ stored ∈ mails, stored.elementId ≠ some elementId) :
    without elementId mails = mails :=
  List.filter_eq_self.mpr fun stored mem => by simpa using absent stored mem

/-! How two rewrites, or a rewrite and a removal, compose. A rewrite keeps the id. -/

section Compose

variable {other : String} {first second : StoredMail → StoredMail}

theorem modifyFirst_modifyFirst
    (keeps : ∀ stored, stored.elementId = some elementId → (first stored).elementId = some elementId)
    (mails : List StoredMail) : modifyFirst elementId second (modifyFirst elementId first mails) =
      modifyFirst elementId (second ∘ first) mails := by
  induction mails with
  | nil => rfl
  | cons head rest ih =>
    by_cases same : head.elementId = some elementId
    · simp [modifyFirst, same, keeps head same]
    · simp [modifyFirst, same, ih]

theorem modifyFirst_comm (different : elementId ≠ other) (firstKeeps : ∀ stored, stored.elementId = some elementId →
      (first stored).elementId = some elementId)
    (secondKeeps : ∀ stored, stored.elementId = some other →
      (second stored).elementId = some other) (mails : List StoredMail) :
    modifyFirst elementId first (modifyFirst other second mails) =
      modifyFirst other second (modifyFirst elementId first mails) := by
  induction mails with
  | nil => rfl
  | cons head rest ih =>
    by_cases isFirst : head.elementId = some elementId
    · simp [modifyFirst, isFirst, firstKeeps head isFirst, different]
    · by_cases isSecond : head.elementId = some other
      · simp [modifyFirst, isSecond, secondKeeps head isSecond, Ne.symm different]
      · simp [modifyFirst, isFirst, isSecond, ih]

theorem without_modifyFirst
    (keeps : ∀ stored, stored.elementId = some elementId → (first stored).elementId = some elementId)
    (mails : List StoredMail) : without elementId (modifyFirst elementId first mails) = without elementId mails := by
  induction mails with
  | nil => rfl
  | cons head rest ih =>
    by_cases same : head.elementId = some elementId
    · simp [modifyFirst, without, same, keeps head same]
    · simpa [modifyFirst, without, same] using ih

theorem without_modifyFirst_of_ne (different : elementId ≠ other)
    (keeps : ∀ stored, stored.elementId = some other → (second stored).elementId = some other)
    (mails : List StoredMail) : without elementId (modifyFirst other second mails) =
      modifyFirst other second (without elementId mails) := by
  induction mails with
  | nil => rfl
  | cons head rest ih =>
    by_cases isOther : head.elementId = some other
    · simp [modifyFirst, without, isOther, keeps head isOther, Ne.symm different]
    · by_cases same : head.elementId = some elementId
      · simpa [modifyFirst, without, same, different] using ih
      · simpa [modifyFirst, without, isOther, same] using ih

end Compose

theorem mem_upsertList_imp {stored new : StoredMail}
    (mem : stored ∈ upsertList new elementId mails) : stored = new ∨ stored ∈ mails := by
  unfold upsertList at mem
  split at mem
  · rcases mem_modifyFirst_imp mem with kept | ⟨_, _, _, equal⟩
    · exact .inr kept
    · exact .inl equal
  · rcases List.mem_append.mp mem with kept | last
    · exact .inr kept
    · exact .inl (by simpa using last)

theorem mem_upsertList_self (new : StoredMail) : new ∈ upsertList new elementId mails := by
  unfold upsertList
  split
  next present =>
    obtain ⟨stored, mem, same⟩ := List.any_eq_true.mp present
    obtain ⟨_, _, _, rewritten⟩ :=
      exists_mem_modifyFirst (fun _ => new) ⟨stored, mem, by simpa using same⟩
    exact rewritten
  next => simp

theorem mem_upsertList_of_ne {stored new : StoredMail} (mem : stored ∈ mails)
    (different : stored.elementId ≠ some elementId) : stored ∈ upsertList new elementId mails := by
  unfold upsertList
  split
  · exact mem_modifyFirst_of_ne mem different
  · exact List.mem_append_left _ mem

end Lists

/-! ## What each operation does to a folder -/

@[simp] theorem getFolder_setFolderList (folders : List FolderInfo) (store : MailStore) (folderId : String) :
    (store.setFolderList folders).getFolder folderId = store.getFolder folderId := rfl

@[simp] theorem getFolder_setFolder (folderId other : String) (mails : List StoredMail) (store : MailStore) :
    (store.setFolder folderId mails).getFolder other =
      if other = folderId then mails else store.getFolder other := by
  by_cases same : other = folderId <;> simp [setFolder, getFolder, bumpGeneration, same]

@[simp] theorem getFolder_refreshMailInPlace {mail : Mail} {elementId : String}
    (identified : mail.elementId = some elementId) (store : MailStore) (folderId : String) :
    (store.refreshMailInPlace mail).getFolder folderId =
      modifyFirst elementId (fun stored => { stored with mail := mail }) (store.getFolder folderId) := by
  have mapped : getFolder { store with
      folders := store.folders.mapValues
        (modifyFirst elementId fun stored => { stored with mail := mail }) } folderId =
      modifyFirst elementId (fun stored => { stored with mail := mail }) (store.getFolder folderId) := by
    cases found : store.folders.get? folderId <;> simp [getFolder, found, modifyFirst]
  simp only [refreshMailInPlace, identified]
  split
  · exact mapped
  · exact mapped

@[simp] theorem getFolder_removeMailFromFolder (folderId elementId other : String) (store : MailStore) :
    (store.removeMailFromFolder folderId elementId).2.getFolder other =
      if other = folderId then without elementId (store.getFolder folderId)
      else store.getFolder other := by
  unfold removeMailFromFolder
  cases found : store.folders.get? folderId with
  | none =>
    by_cases same : other = folderId
    · simp [getFolder, found, same, without]
    · simp [same]
  | some mails =>
    dsimp only
    split <;> by_cases same : other = folderId <;> simp [getFolder, bumpGeneration, found, same]

@[simp] theorem getFolder_upsertMailInFolder (stored : StoredMail) {elementId : String}
    (identified : stored.elementId = some elementId) (folderId other : String) (store : MailStore) :
    (store.upsertMailInFolder folderId stored).getFolder other =
      if other = folderId then upsertList stored elementId (store.getFolder folderId)
      else store.getFolder other := by
  by_cases same : other = folderId <;>
    simp [upsertMailInFolder, identified, getFolder, bumpGeneration, same]

theorem get?_pruneUnknownFolders (store : MailStore) (folderId : String) :
    (store.pruneUnknownFolders known).2.folders.get? folderId =
      if folderId ∈ known then store.folders.get? folderId else none := by
  have kept : Dict.get? (store.folders.delete fun row => row.1 ∉ known) folderId =
      if folderId ∈ known then store.folders.get? folderId else none := by
    rw [Dict.get?_delete store.folders fun id => decide (id ∉ known)]
    by_cases mem : folderId ∈ known <;> simp [mem]
  unfold pruneUnknownFolders
  dsimp only
  split
  · exact kept
  · exact kept

@[simp] theorem getFolder_pruneUnknownFolders (store : MailStore) (folderId : String) :
    (store.pruneUnknownFolders known).2.getFolder folderId =
      if folderId ∈ known then store.getFolder folderId else [] := by
  rw [getFolder, get?_pruneUnknownFolders, getFolder]
  split <;> rfl

@[simp] theorem getFolder_removeMailEverywhere (elementId folderId : String) (store : MailStore) :
    (store.removeMailEverywhere elementId).getFolder folderId = without elementId (store.getFolder folderId) := by
  have mapped : getFolder { store with folders := store.folders.mapValues (without elementId) }
      folderId = without elementId (store.getFolder folderId) := by
    cases found : store.folders.get? folderId <;> simp [getFolder, found, without]
  unfold removeMailEverywhere
  dsimp only
  split
  · exact mapped
  · exact mapped

@[simp] theorem getFolder_markComplete (folderId elementId other : String) (store : MailStore) :
    (store.markComplete folderId elementId).getFolder other =
      if other = folderId then
        modifyFirst elementId (fun stored => { stored with bodyLoaded := true, attachmentsPending := false })
          (store.getFolder folderId)
      else store.getFolder other := by
  unfold markComplete
  cases found : store.folders.get? folderId with
  | none =>
    by_cases same : other = folderId
    · simp [getFolder, found, same, modifyFirst]
    · simp [same]
  | some mails => by_cases same : other = folderId <;> simp [getFolder, found, same]

/-- A folder with mails has an entry in the map. -/
theorem mem_keys_of_mem_getFolder {folderId : String}
    (mem : stored ∈ store.getFolder folderId) : folderId ∈ store.folders.keys := by
  rw [Dict.mem_keys_iff]
  cases found : store.folders.get? folderId with
  | none => simp [getFolder, found] at mem
  | some mails => rfl

/-- The ids `prune_unknown_folders` returns are the unknown keys of the map. -/
theorem mem_pruneUnknownFolders_iff {known : List String} {folderId : String} :
    folderId ∈ (store.pruneUnknownFolders known).1 ↔ folderId ∈ store.folders.keys ∧ folderId ∉ known := by
  simp [pruneUnknownFolders]

/-! ## What the operations leave alone -/

@[simp] theorem folderList_setFolder (folderId : String) (mails : List StoredMail)
    (store : MailStore) : (store.setFolder folderId mails).folderList = store.folderList := rfl

@[simp] theorem folderList_upsertMailInFolder (folderId : String) (stored : StoredMail)
    (store : MailStore) : (store.upsertMailInFolder folderId stored).folderList = store.folderList := by
  unfold upsertMailInFolder
  split <;> rfl

@[simp] theorem folderList_removeMailFromFolder (folderId elementId : String) (store : MailStore) :
    (store.removeMailFromFolder folderId elementId).2.folderList = store.folderList := by
  unfold removeMailFromFolder
  split
  · rfl
  · dsimp only
    split <;> rfl

@[simp] theorem folderList_removeMailEverywhere (elementId : String) (store : MailStore) :
    (store.removeMailEverywhere elementId).folderList = store.folderList := by
  unfold removeMailEverywhere
  dsimp only
  split <;> rfl

@[simp] theorem folderList_refreshMailInPlace (mail : Mail) (store : MailStore) :
    (store.refreshMailInPlace mail).folderList = store.folderList := by
  unfold refreshMailInPlace
  split
  · rfl
  · dsimp only
    split <;> rfl

@[simp] theorem bodies_upsertMailInFolder (folderId : String) (stored : StoredMail)
    (store : MailStore) : (store.upsertMailInFolder folderId stored).bodies = store.bodies := by
  unfold upsertMailInFolder
  split <;> rfl

@[simp] theorem bodies_refreshMailInPlace (mail : Mail) (store : MailStore) :
    (store.refreshMailInPlace mail).bodies = store.bodies := by
  unfold refreshMailInPlace
  split
  · rfl
  · dsimp only
    split <;> rfl

@[simp] theorem bodies_pruneUnknownFolders (store : MailStore) :
    (store.pruneUnknownFolders known).2.bodies = store.bodies := by
  unfold pruneUnknownFolders
  dsimp only
  split <;> rfl

@[simp] theorem bodies_markComplete (folderId elementId : String) (store : MailStore) :
    (store.markComplete folderId elementId).bodies = store.bodies := by
  unfold markComplete
  split <;> rfl

@[simp] theorem bodies_removeMailFromFolder (folderId elementId : String) (store : MailStore) :
    (store.removeMailFromFolder folderId elementId).2.bodies = store.bodies := by
  unfold removeMailFromFolder
  split
  · rfl
  · dsimp only
    split <;> rfl

@[simp] theorem bodies_removeMailEverywhere (elementId : String) (store : MailStore) :
    (store.removeMailEverywhere elementId).bodies = store.bodies := by
  unfold removeMailEverywhere
  dsimp only
  split <;> rfl

@[simp] theorem bodies_bodyFetchOnCooldown (elementId : String) (now : Nat) (store : MailStore) :
    (store.bodyFetchOnCooldown elementId now).2.bodies = store.bodies := by
  unfold bodyFetchOnCooldown
  split
  · rfl
  · split <;> rfl

/-! ## Where a mail is -/

/-- The folder holds the mail. -/
def Holds (store : MailStore) (folderId elementId : String) : Prop :=
  ∃ stored ∈ store.getFolder folderId, stored.elementId = some elementId

instance (store : MailStore) (folderId elementId : String) : Decidable (store.Holds folderId elementId) :=
  inferInstanceAs (Decidable (∃ stored ∈ store.getFolder folderId, _))

/-- An upsert adds its mail to its folder and removes nothing. -/
theorem holds_upsertMailInFolder (stored : StoredMail) {elementId : String}
    (identified : stored.elementId = some elementId) (folderId other id : String) (store : MailStore) :
    (store.upsertMailInFolder folderId stored).Holds other id ↔
      (other = folderId ∧ id = elementId) ∨ store.Holds other id := by
  unfold Holds
  rw [getFolder_upsertMailInFolder stored identified]
  by_cases same : other = folderId
  · subst same
    simp only [if_true, true_and]
    constructor
    · rintro ⟨copy, mem, copyId⟩
      rcases mem_upsertList_imp mem with rfl | earlier
      · exact .inl (Option.some.inj (copyId.symm.trans identified))
      · exact .inr ⟨copy, earlier, copyId⟩
    · rintro (rfl | ⟨copy, mem, copyId⟩)
      · exact ⟨stored, mem_upsertList_self stored, identified⟩
      · by_cases replaced : id = elementId
        · exact ⟨stored, mem_upsertList_self stored, replaced ▸ identified⟩
        · refine ⟨copy, mem_upsertList_of_ne mem ?_, copyId⟩
          rw [copyId]
          exact fun equal => replaced (Option.some.inj equal)
  · simp [same]

theorem holds_removeMailFromFolder (folderId elementId other id : String) (store : MailStore) :
    (store.removeMailFromFolder folderId elementId).2.Holds other id ↔
      ¬ (other = folderId ∧ id = elementId) ∧ store.Holds other id := by
  unfold Holds
  rw [getFolder_removeMailFromFolder]
  by_cases same : other = folderId
  · subst same
    simp only [if_true, true_and, mem_without_iff]
    constructor
    · rintro ⟨copy, ⟨mem, kept⟩, copyId⟩
      refine ⟨?_, copy, mem, copyId⟩
      rintro rfl
      exact kept copyId
    · rintro ⟨kept, copy, mem, copyId⟩
      refine ⟨copy, ⟨mem, ?_⟩, copyId⟩
      rw [copyId]
      exact fun equal => kept (Option.some.inj equal)
  · simp [same]

/-- A refresh keeps every mail where it is. -/
theorem holds_refreshMailInPlace (mail : Mail) (store : MailStore) (folderId elementId : String) :
    (store.refreshMailInPlace mail).Holds folderId elementId ↔ store.Holds folderId elementId := by
  have listed : ∀ store : MailStore, store.Holds folderId elementId ↔
      some elementId ∈ (store.getFolder folderId).map StoredMail.elementId := by
    intro store
    simp only [Holds, List.mem_map]
  cases identified : mail.elementId with
  | none => simp [refreshMailInPlace, identified]
  | some id =>
    have ids : ((store.refreshMailInPlace mail).getFolder folderId).map StoredMail.elementId =
        (store.getFolder folderId).map StoredMail.elementId := by
      rw [getFolder_refreshMailInPlace identified]
      exact map_modifyFirst _ fun stored same => identified.trans same.symm
    rw [listed, listed, ids]

theorem holds_removeMailEverywhere (elementId : String) (store : MailStore) (folderId id : String) :
    (store.removeMailEverywhere elementId).Holds folderId id ↔ id ≠ elementId ∧ store.Holds folderId id := by
  simp only [Holds, getFolder_removeMailEverywhere, mem_without_iff]
  constructor
  · rintro ⟨stored, ⟨mem, kept⟩, same⟩
    refine ⟨?_, stored, mem, same⟩
    rintro rfl
    exact kept same
  · rintro ⟨kept, stored, mem, same⟩
    refine ⟨stored, ⟨mem, ?_⟩, same⟩
    rw [same]
    exact fun equal => kept (Option.some.inj equal)

theorem isMailAnywhere_iff {elementId : String} :
    store.isMailAnywhere elementId = true ↔ ∃ folderId, store.Holds folderId elementId := by
  simp only [isMailAnywhere, List.any_eq_true, decide_eq_true_eq]
  constructor
  · rintro ⟨row, mem, stored, inRow, same⟩
    refine ⟨row.1, stored, ?_, same⟩
    simpa [getFolder, Dict.get?, Table.find?_of_mem mem] using inRow
  · rintro ⟨folderId, stored, mem, same⟩
    cases found : store.folders.find? folderId with
    | none => simp [getFolder, Dict.get?, found] at mem
    | some row =>
      refine ⟨row, Table.mem_of_find? found, stored, ?_, same⟩
      simpa [getFolder, Dict.get?, found] using mem

theorem mailInFolder_eq_some_imp {folderId elementId : String}
    (found : store.mailInFolder folderId elementId = some stored) :
    stored ∈ store.getFolder folderId ∧ stored.elementId = some elementId :=
  ⟨List.mem_of_find?_eq_some found, by simpa using List.find?_some found⟩

theorem isSome_mailInFolder_iff {folderId elementId : String} :
    (store.mailInFolder folderId elementId).isSome ↔ store.Holds folderId elementId := by
  simp [mailInFolder, Holds, List.find?_isSome]

/-- Whatever the iteration order, the search returns a real copy. -/
theorem findMailAnywhere_eq_some_imp {order : List String}
    {elementId folderId : String}
    (found : store.findMailAnywhere order elementId = some (folderId, stored)) :
    stored ∈ store.getFolder folderId ∧ stored.elementId = some elementId := by
  obtain ⟨candidate, _, located⟩ := List.exists_of_findSome?_eq_some found
  obtain ⟨copy, copyFound, equal⟩ := Option.map_eq_some_iff.mp located
  cases equal
  exact mailInFolder_eq_some_imp copyFound

/-- Whatever the iteration order, the search finds a mail that is somewhere. -/
theorem isSome_findMailAnywhere_iff {order : List String} {elementId : String}
    (permuted : order.Perm store.folders.keys) :
    (store.findMailAnywhere order elementId).isSome ↔ store.isMailAnywhere elementId = true := by
  rw [isMailAnywhere_iff]
  constructor
  · intro found
    obtain ⟨⟨folderId, stored⟩, equal⟩ := Option.isSome_iff_exists.mp found
    exact ⟨folderId, stored, findMailAnywhere_eq_some_imp equal⟩
  · rintro ⟨folderId, held⟩
    obtain ⟨stored, mem, same⟩ := held
    rw [findMailAnywhere, List.findSome?_isSome_iff]
    refine ⟨folderId, permuted.mem_iff.mpr (mem_keys_of_mem_getFolder mem), ?_⟩
    rw [Option.isSome_map, isSome_mailInFolder_iff]
    exact ⟨stored, mem, same⟩

end MailStore

end TutaBridge.Store
