import TutaBridge.Events.HandlerFacts
import TutaBridge.Std.Guarded
import TutaBridge.Tuta.FolderSystem

/-!
# The folder list

`list_folders` loads one range of the mailbox's mail sets, builds the folder tree
from it, and lists the folders of a supported kind under their path in the tree.
After a `MailSet` event the ids it lists are the folders to keep: every other folder
in memory is dropped, with its rows. The SDK's entity client is a parameter.
-/

namespace TutaBridge.Events

open TutaBridge.Std Tuta Store Bridge

variable {folder : MailSet}

/-- The SDK calls of `list_folders`, by tick: the list of the user's mail sets, a range
of that list in ascending order, and the text of an error. -/
structure FolderClient where
  loadUserMailbox : Nat → Except ApiCallError String
  loadRange : Nat → String → String → Nat → Except ApiCallError (List MailSet)
  minId : String
  errorText : ApiCallError → String

/-- The `count` that `load_folders_for_mailbox` passes to `load_range`. -/
def folderRange : Nat := 100

/-- `load_folders_for_mailbox`. -/
def loadFoldersForMailbox (client : FolderClient) (tick : Nat) (mailSets : String) :
    Except ApiCallError FolderSystem :=
  (client.loadRange tick mailSets client.minId folderRange).map FolderSystem.new

/-- `IMAP_DELIMITER`. -/
def imapDelimiter : Char := '/'

/-- Canonical IMAP name for a system folder, none for custom and unsupported ones. -/
def systemImapName : MailSetKind → Option String
  | .inbox => some "INBOX"
  | .sent => some "Sent"
  | .draft => some "Drafts"
  | .trash => some "Trash"
  | .archive => some "Archive"
  | .spam => some "Spam"
  | _ => none

/-- RFC 6154 special-use attribute for a system folder. -/
def systemSpecialUse : MailSetKind → Option String
  | .sent => some "\\Sent"
  | .draft => some "\\Drafts"
  | .trash => some "\\Trash"
  | .archive => some "\\Archive"
  | .spam => some "\\Junk"
  | _ => none

/-- The part of an IMAP path that an ancestor stands for. -/
def pathSegment (ancestor : MailSet) : String :=
  match systemImapName ancestor.kind with
  | some name => name
  | none => ancestor.name.map fun char => if char = imapDelimiter then '_' else char

/-- The IMAP path of a folder in the tree. -/
def imapPath (system : FolderSystem) (folderId : String) : String :=
  String.intercalate imapDelimiter.toString ((system.pathToFolder folderId).map pathSegment)

/-- The kinds that are exposed over IMAP. -/
def Supported (kind : MailSetKind) : Prop := kind = .custom ∨ (systemImapName kind).isSome

instance (kind : MailSetKind) : Decidable (Supported kind) :=
  inferInstanceAs (Decidable (_ ∨ _))

/-- The loop body of `list_folders`: what a folder of the tree is listed as. -/
def folderInfo (system : FolderSystem) (folder : MailSet) : Option FolderInfo :=
  if Supported folder.kind then
    match folder.id with
    | none => none
    | some id =>
      if imapPath system id.elementId = "" then none
      else
        some
          { id := id.elementId
            listId := id.listId
            entriesListId := folder.entries
            kind := folder.kind
            imapPath := imapPath system id.elementId
            specialUse := systemSpecialUse folder.kind }
  else none

/-- `list_folders`. -/
def listFolders (client : FolderClient) (tick : Nat) : Except String (List FolderInfo) :=
  match client.loadUserMailbox tick with
  | .error error => .error (client.errorText error)
  | .ok mailSets =>
    match loadFoldersForMailbox client tick mailSets with
    | .error error => .error (client.errorText error)
    | .ok system => .ok (system.indentedList.filterMap fun indented => folderInfo system indented.2)

/-- The bridge with its folder list made from the mail sets. -/
def folderEnv (env : Env) (client : FolderClient) : Env :=
  { env with backend := { env.backend with listFolders := listFolders client } }

/-! ## What is listed -/

section Listed

variable {folders : List MailSet}

theorem pathSegment_eq_empty_iff :
    pathSegment folder = "" ↔ systemImapName folder.kind = none ∧ folder.name = "" := by
  rw [pathSegment]
  cases folder.kind <;> simp [systemImapName]

theorem intercalate_eq_empty_iff {segments : List String} {last : String} {separator : Char} :
    String.intercalate separator.toString (segments ++ [last]) = "" ↔ segments = [] ∧ last = "" := by
  cases segments with
  | nil => simp
  | cons head rest =>
    rw [List.cons_append, String.intercalate_cons_of_ne_nil (by simp)]
    simp [String.append_eq_empty_iff]

/-- The path of a rooted folder is empty only for a top-level folder without a name. -/
theorem imapPath_eq_empty_iff (wellFormed : WellFormed folders) {id : String}
    (rooted : Rooted folders folder) (isId : folder.elementId = some id) :
    imapPath (.new folders) id = "" ↔
      folder ∈ roots folders ∧ systemImapName folder.kind = none ∧ folder.name = "" := by
  obtain ⟨above, isPath, isRoot⟩ := pathToFolder_of_rooted wellFormed rooted isId
  rw [imapPath, isPath, List.map_append, List.map_singleton, intercalate_eq_empty_iff,
    List.map_eq_nil_iff, isRoot, pathSegment_eq_empty_iff]

/-- The folder has a place in the list made from the mail sets: it is of a supported kind
and in the tree, and not a top-level custom folder without a name. -/
def Listable (folders : List MailSet) (folder : MailSet) : Prop :=
  Supported folder.kind ∧ Rooted folders folder ∧ ¬ (folder.isTopLevelCustom ∧ folder.name = "")

/-- A supported folder at the root without a system name is a top-level custom one. -/
theorem root_unnamed_iff (supported : Supported folder.kind) (mem : folder ∈ folders) :
    folder ∈ roots folders ∧ systemImapName folder.kind = none ↔ folder.isTopLevelCustom := by
  rw [mem_roots_iff]
  constructor
  · rintro ⟨⟨_, isVisible | isTop⟩, unnamed⟩
    · rcases supported with isCustom | named
      · simp [MailSet.isVisibleSystem, isCustom] at isVisible
      · simp [unnamed] at named
    · exact isTop
  · intro isTop
    refine ⟨⟨mem, .inr isTop⟩, ?_⟩
    rw [(of_decide_eq_true isTop).1]
    rfl

/-- What a folder of the tree is listed as carries its id. -/
theorem folderInfo_iff (wellFormed : WellFormed folders) {id : String}
    (rooted : Rooted folders folder) (isId : folder.elementId = some id) :
    (∃ info, folderInfo (.new folders) folder = some info ∧ info.id = id) ↔ Listable folders folder := by
  obtain ⟨ref, isRef, rfl⟩ := Option.map_eq_some_iff.mp isId
  have emptyIff := imapPath_eq_empty_iff wellFormed rooted isId
  rw [folderInfo, isRef]
  dsimp only
  by_cases supported : Supported folder.kind
  · rw [← and_assoc, root_unnamed_iff supported rooted.mem] at emptyIff
    rw [if_pos supported]
    split
    next isEmpty => simp [Listable, emptyIff.mp isEmpty]
    next notEmpty =>
      have named := mt emptyIff.mpr notEmpty
      simp [Listable, supported, rooted, named]
  · simp [Listable, supported]

theorem elementId_of_folderInfo {system : FolderSystem} {info : FolderInfo}
    (isInfo : folderInfo system folder = some info) : folder.elementId = some info.id := by
  unfold folderInfo at isInfo
  split at isInfo
  · split at isInfo
    · cases isInfo
    next id isId =>
      split at isInfo
      · cases isInfo
      · cases isInfo
        rw [MailSet.elementId, isId, Option.map_some]
  · cases isInfo

end Listed

/-! ## What the server has -/

/-- The user's mailbox: its mail sets, in the order of their ids. -/
structure Mailbox where
  listId : String
  mailSets : List MailSet
  wellFormed : WellFormed mailSets

/-- A request that succeeds answers with what the server has: `load_range` from the least
id on with the first `count` elements of the list. -/
structure FolderClient.Serves (client : FolderClient) (mailbox : Mailbox) : Prop where
  loadUserMailbox : ∀ tick listId, client.loadUserMailbox tick = .ok listId → listId = mailbox.listId
  loadRange : ∀ tick count mailSets, client.loadRange tick mailbox.listId client.minId count = .ok mailSets →
      mailSets = mailbox.mailSets.take count

/-- The mail sets that the folder list is made from. -/
def Mailbox.loaded (mailbox : Mailbox) : List MailSet := mailbox.mailSets.take folderRange

section Served

variable {client : FolderClient} {mailbox : Mailbox} {tick : Nat} {listed : List FolderInfo}

/-- What is listed is made from the mail sets that were loaded. -/
theorem listFolders_eq (serves : client.Serves mailbox) (answered : listFolders client tick = .ok listed) :
    listed = (FolderSystem.new mailbox.loaded).indentedList.filterMap fun indented =>
      folderInfo (.new mailbox.loaded) indented.2 := by
  unfold listFolders at answered
  split at answered
  · cases answered
  next listId isList =>
    obtain rfl := serves.loadUserMailbox _ _ isList
    rw [loadFoldersForMailbox] at answered
    cases loaded : client.loadRange tick mailbox.listId client.minId folderRange with
    | error error => simp [loaded, Except.map] at answered
    | ok mailSets =>
      rw [serves.loadRange _ _ _ loaded] at loaded
      simpa [loaded, Except.map, Mailbox.loaded, eq_comm] using answered

/-- A folder of the mailbox is listed exactly when it has a place in the list made from
the mail sets that were loaded. -/
theorem mem_listFolders_iff (serves : client.Serves mailbox)
    (answered : listFolders client tick = .ok listed) {id : String}
    (mem : folder ∈ mailbox.mailSets) (isId : folder.elementId = some id) :
    id ∈ listed.map FolderInfo.id ↔ Listable mailbox.loaded folder := by
  have wellFormed : WellFormed mailbox.loaded := mailbox.wellFormed.take folderRange
  rw [listFolders_eq serves answered, List.mem_map]
  simp only [List.mem_filterMap]
  constructor
  · rintro ⟨info, ⟨⟨level, other⟩, inTree, isInfo⟩, rfl⟩
    have rooted := (mem_indentedList_iff wellFormed).mp ⟨level, inTree⟩
    obtain rfl : other = folder :=
      mailbox.wellFormed.eq_of_elementId (List.mem_of_mem_take rooted.mem) mem
        ((elementId_of_folderInfo isInfo).trans isId.symm)
    exact (folderInfo_iff wellFormed rooted isId).mp ⟨info, isInfo, rfl⟩
  · intro listable
    obtain ⟨level, inTree⟩ := (mem_indentedList_iff wellFormed).mpr listable.2.1
    obtain ⟨info, isInfo, sameId⟩ := (folderInfo_iff wellFormed listable.2.1 isId).mpr listable
    exact ⟨info, ⟨(level, folder), inTree, isInfo⟩, sameId⟩

end Served

/-! ## What is pruned -/

section Pruned

variable {env : Env}

theorem dropFolder_store (world : World) (folderId : String) :
    (dropFolder env world folderId).store = world.store := by
  unfold dropFolder
  dsimp only
  split
  · exact World.call_store _ _
  · rw [foldl_keeps World.store fun world id => World.write_store _ _]
    exact World.call_store _ _

/-- Dropping a folder leaves the rows of the others, on any disk. -/
theorem dropFolder_keeps_row {world : World} {folderId elementId : String} {row : MailMetadata}
    (elsewhere : row.folderId ≠ folderId) (found : world.localStore.mails.find? elementId = some row) :
    (dropFolder env world folderId).localStore.mails.find? elementId = some row := by
  have dropped : (world.call env (LocalStore.deleteFolderMails folderId)).2.localStore.mails.find?
      elementId = some row := by
    refine @World.call_localStore_rel env (fun before after => before.mails.find? elementId = some row →
        after.mails.find? elementId = some row) (fun _ => id) _ _ (fun store found => ?_) world found
    rw [LocalStore.find?_deleteFolderMails, found]
    simp [elsewhere]
  unfold dropFolder
  dsimp only
  split
  · exact dropped
  · rw [foldl_keeps (fun world : World => world.localStore.mails)]
    · exact dropped
    · intro world id
      exact (@World.call_localStore_rel env (fun before after => after.mails = before.mails)
        (fun _ => rfl) Unit (fun store => ((), store.deleteEml id)) (fun _ => rfl) world)

variable {world : World} {listed : List FolderInfo}

/-- A refresh keeps the listed folders in memory and drops the others. -/
theorem get?_refreshFolderList (answered : env.backend.listFolders world.tick = .ok listed)
    (folderId : String) :
    (refreshFolderList env world).store.folders.get? folderId =
      if folderId ∈ listed.map FolderInfo.id then world.store.folders.get? folderId else none := by
  simp only [refreshFolderList, World.ask_fst, answered]
  rw [foldl_keeps World.store dropFolder_store, MailStore.get?_pruneUnknownFolders]
  rfl

/-- A refresh keeps the rows of a folder it does not drop from memory. -/
theorem refreshFolderList_keeps_row (answered : env.backend.listFolders world.tick = .ok listed)
    {elementId : String} {row : MailMetadata}
    (known : row.folderId ∈ world.store.folders.keys → row.folderId ∈ listed.map FolderInfo.id)
    (found : world.localStore.mails.find? elementId = some row) :
    (refreshFolderList env world).localStore.mails.find? elementId = some row := by
  simp only [refreshFolderList, World.ask_fst, answered]
  refine @List.foldlRecOn _ _
    (fun world : World => world.localStore.mails.find? elementId = some row) _ _ _ found
    fun state kept folderId isPruned => ?_
  refine dropFolder_keeps_row (fun same => ?_) kept
  obtain ⟨inMemory, unknown⟩ := MailStore.mem_pruneUnknownFolders_iff.mp isPruned
  exact unknown (same ▸ known (same ▸ inMemory))

end Pruned

/-- The folder and all its ancestors are among the mail sets. -/
inductive AncestorsExist (folders : List MailSet) : MailSet → Prop where
  | top {folder : MailSet} (mem : folder ∈ folders) (parentless : folder.parentFolder = none) :
      AncestorsExist folders folder
  | child {folder parent : MailSet} {ref : IdTuple} (above : AncestorsExist folders parent)
      (mem : folder ∈ folders) (named : folder.parentFolder = some ref)
      (isParent : parent.elementId = some ref.elementId) : AncestorsExist folders folder

/-- A folder that a folder list should have: a supported system folder, or a custom
folder whose ancestors all exist. -/
def Mailbox.Expects (mailbox : Mailbox) (folder : MailSet) : Prop :=
  folder ∈ mailbox.mailSets ∧ ((systemImapName folder.kind).isSome ∨
    folder.kind = .custom ∧ AncestorsExist mailbox.mailSets folder)

/-- The list has every folder it should have. -/
def Mailbox.ListedIn (mailbox : Mailbox) (listed : List FolderInfo) : Prop :=
  ∀ folder id, mailbox.Expects folder → folder.elementId = some id → id ∈ listed.map FolderInfo.id

/-- Memory and table lost no folder whose mail set exists. -/
def Mailbox.KeptBetween (mailbox : Mailbox) (before after : World) : Prop :=
  ∀ folder ∈ mailbox.mailSets, ∀ id, folder.elementId = some id →
    after.store.folders.get? id = before.store.folders.get? id ∧
      ∀ elementId row, before.localStore.mails.find? elementId = some row → row.folderId = id →
        after.localStore.mails.find? elementId = some row

section Refresh

variable {env : Env} {client : FolderClient} {mailbox : Mailbox} {world : World}
  {listed : List FolderInfo}

theorem keptBetween_iff (serves : client.Serves mailbox) (answered : listFolders client world.tick = .ok listed) :
    mailbox.KeptBetween world (refreshFolderList (folderEnv env client) world) ↔
      ∀ folder ∈ mailbox.mailSets, ∀ id, folder.elementId = some id →
        id ∈ world.store.folders.keys → Listable mailbox.loaded folder := by
  constructor
  · intro kept folder mem id isId inMemory
    rw [← mem_listFolders_iff serves answered mem isId]
    by_contra unlisted
    have dropped := (kept folder mem id isId).1
    rw [get?_refreshFolderList answered, if_neg unlisted] at dropped
    rw [Dict.mem_keys_iff, ← dropped] at inMemory
    cases inMemory
  · intro listable folder mem id isId
    have isListed : id ∈ world.store.folders.keys → id ∈ listed.map FolderInfo.id := fun inMemory =>
      (mem_listFolders_iff serves answered mem isId).mpr (listable folder mem id isId inMemory)
    refine ⟨?_, fun elementId row found inFolder => ?_⟩
    · rw [get?_refreshFolderList answered]
      split
      next => rfl
      next unlisted =>
        have absent := mt isListed unlisted
        rw [Dict.mem_keys_iff, Option.isSome_iff_ne_none, not_not] at absent
        exact absent.symm
    · exact refreshFolderList_keeps_row answered (inFolder ▸ isListed) found

theorem listedIn_iff (serves : client.Serves mailbox) {tick : Nat} (answered : listFolders client tick = .ok listed) :
    mailbox.ListedIn listed ↔ ∀ folder, mailbox.Expects folder → Listable mailbox.loaded folder := by
  constructor
  · intro complete folder expected
    obtain ⟨id, isId⟩ := mailbox.wellFormed.exists_elementId expected.1
    exact (mem_listFolders_iff serves answered expected.1 isId).mp (complete folder id expected isId)
  · intro listable folder id expected isId
    exact (mem_listFolders_iff serves answered expected.1 isId).mpr (listable folder expected)

/-- A refresh with a folder list keeps every folder that exists on the server, and the list
has every folder it should have, exactly when each of these folders has its place in the
list made from the mail sets that were loaded. -/
theorem refreshFolderList_keeps_live_iff (serves : client.Serves mailbox)
    (answered : listFolders client world.tick = .ok listed) :
    mailbox.KeptBetween world (refreshFolderList (folderEnv env client) world) ∧ mailbox.ListedIn listed ↔
      ∀ folder ∈ mailbox.mailSets,
        ((∃ id ∈ world.store.folders.keys, folder.elementId = some id) ∨ mailbox.Expects folder) →
          Listable mailbox.loaded folder := by
  rw [keptBetween_iff serves answered, listedIn_iff serves answered]
  constructor
  · rintro ⟨inMemory, expected⟩ folder mem (⟨id, isKey, isId⟩ | isExpected)
    · exact inMemory folder mem id isId isKey
    · exact expected folder isExpected
  · intro listable
    exact ⟨fun folder mem id isId isKey => listable folder mem (.inl ⟨id, isKey, isId⟩),
      fun folder isExpected => listable folder isExpected.1 (.inr isExpected)⟩

end Refresh

/-! ## Two mailboxes -/

/-- The client of a server that answers every request. -/
def servingClient (mailbox : Mailbox) : FolderClient where
  loadUserMailbox _ := .ok mailbox.listId
  loadRange _ _ _ count := .ok (mailbox.mailSets.take count)
  minId := "------------"
  errorText _ := "offline"

theorem servingClient_serves (mailbox : Mailbox) : (servingClient mailbox).Serves mailbox where
  loadUserMailbox _ _ answered := (Except.ok.inj answered).symm
  loadRange _ _ _ answered := (Except.ok.inj answered).symm

theorem servingClient_answers (mailbox : Mailbox) (tick : Nat) :
    ∃ listed, listFolders (servingClient mailbox) tick = .ok listed :=
  ⟨_, rfl⟩

def sampleMailSet (elementId : String) (folderType : Int) (parent : Option String) : MailSet where
  id := some ⟨"folders", elementId⟩
  folderType := folderType
  name := elementId
  parentFolder := parent.map fun id => ⟨"folders", id⟩
  entries := elementId

/-- An inbox, a custom folder, one below it, and a label. -/
def nestedMailbox : Mailbox where
  listId := "folders"
  mailSets :=
    [sampleMailSet "inbox" 1 none, sampleMailSet "work" 0 none, sampleMailSet "urgent" 0 (some "work"),
      sampleMailSet "label" 8 none]
  wellFormed := { identified := by decide, distinct := by decide, systemTop := by decide }

/-- Both folders that are in memory stay, and every folder is listed. -/
theorem refreshFolderList_keeps_nested : ∃ listed, listFolders (servingClient nestedMailbox) 0 = .ok listed ∧
      nestedMailbox.KeptBetween (sampleWorld [] [("inbox", []), ("urgent", [sampleStored "mail" 1])])
        (refreshFolderList (folderEnv (quietEnv (offlineBackend [])) (servingClient nestedMailbox))
          (sampleWorld [] [("inbox", []), ("urgent", [sampleStored "mail" 1])])) ∧
      nestedMailbox.ListedIn listed := by
  obtain ⟨listed, answered⟩ := servingClient_answers nestedMailbox 0
  have loaded : nestedMailbox.loaded = nestedMailbox.mailSets := by decide
  refine ⟨listed, answered, (refreshFolderList_keeps_live_iff (servingClient_serves _) answered).mpr ?_⟩
  have work : Rooted nestedMailbox.mailSets (sampleMailSet "work" 0 none) :=
    .topLevel (by decide) (by decide)
  intro folder mem reason
  rw [loaded]
  simp only [nestedMailbox, List.mem_cons, List.not_mem_nil, or_false] at mem
  rcases mem with rfl | rfl | rfl | rfl
  · exact ⟨by decide, .system (by decide) (by decide), by decide⟩
  · exact ⟨by decide, work, by decide⟩
  · exact ⟨by decide, .child work (by decide) rfl rfl, by decide⟩
  · -- The label is neither in memory nor expected.
    exfalso
    rcases reason with ⟨id, inMemory, isId⟩ | ⟨_, named | ⟨isCustom, _⟩⟩
    · cases isId
      exact absurd inMemory (by decide)
    · cases named
    · cases isCustom

theorem sampleMailSet_injective :
    Function.Injective fun index : Nat => (sampleMailSet index.repr 0 none).elementId := by
  intro first second same
  have digits := congrArg String.toList (Option.some.inj same)
  simp only [Nat.repr, String.toList_ofList] at digits
  have values := congrArg (Nat.ofDigitChars 10 · 0) digits
  simpa only [Nat.ofDigitChars_ten_toDigits] using values

/-- One custom folder more than a range has. -/
def crowdedMailbox : Mailbox where
  listId := "folders"
  mailSets := (List.range (folderRange + 1)).map fun index => sampleMailSet index.repr 0 none
  wellFormed :=
    { identified := by simp [sampleMailSet]
      distinct := by
        rw [List.map_map]
        exact List.nodup_range.map sampleMailSet_injective
      systemTop := by simp [sampleMailSet] }

/-- The last folder of the mailbox is not listed, and its mail is dropped. -/
theorem refreshFolderList_prunes_crowded :
    ∃ listed, listFolders (servingClient crowdedMailbox) 0 = .ok listed ∧
      ¬ crowdedMailbox.KeptBetween (sampleWorld [] [("100", [sampleStored "mail" 1])])
        (refreshFolderList (folderEnv (quietEnv (offlineBackend [])) (servingClient crowdedMailbox))
          (sampleWorld [] [("100", [sampleStored "mail" 1])])) ∧
      ¬ crowdedMailbox.ListedIn listed := by
  obtain ⟨listed, answered⟩ := servingClient_answers crowdedMailbox 0
  have last : sampleMailSet "100" 0 none ∈ crowdedMailbox.mailSets :=
    List.mem_map.mpr ⟨folderRange, List.mem_range.mpr (Nat.lt_succ_self _), by decide⟩
  have unlisted : ¬ Listable crowdedMailbox.loaded (sampleMailSet "100" 0 none) := by
    rintro ⟨_, rooted, _⟩
    have loaded := rooted.mem
    rw [Mailbox.loaded, crowdedMailbox, ← List.map_take, List.take_range] at loaded
    obtain ⟨index, inRange, same⟩ := List.mem_map.mp loaded
    have isLast : index = folderRange :=
      sampleMailSet_injective ((congrArg MailSet.elementId same).trans (by decide))
    have := List.mem_range.mp inRange
    omega
  refine ⟨listed, answered, fun kept => unlisted ?_, fun complete => unlisted ?_⟩
  · exact (keptBetween_iff (servingClient_serves _) answered).mp kept _ last "100" rfl (by decide)
  · exact (listedIn_iff (servingClient_serves _) answered).mp complete _
      ⟨last, .inr ⟨rfl, .top last rfl⟩⟩

end TutaBridge.Events
