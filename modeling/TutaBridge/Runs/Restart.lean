import TutaBridge.Events.HandlerFacts
import TutaBridge.Std.Guarded

/-!
# What a restart shows

After a restart `load_cached_folder` fills a folder from the `mails` table. A
client sees the same UIDs as before when the pairs of element id and UID are the
same in the table and in memory. Memory has a copy of a mail for each folder, the
table one row for each mail, and an upsert of an existing row leaves its UID as it
was; so the two stay together as long as no mail that has a row is placed again.
-/

namespace TutaBridge.Runs

open TutaBridge.Std Tuta Store Bridge Sync
open Events

variable {elementId : String}

/-- The list has the mail under the UID. -/
def Shown (mails : List StoredMail) (elementId : String) (uid : Nat) : Prop :=
  ∃ stored ∈ mails, stored.elementId = some elementId ∧ stored.uid = uid

theorem shown_iff_mem {mails : List StoredMail} {uid : Nat} : Shown mails elementId uid ↔
      (some elementId, uid) ∈ mails.map fun stored => (stored.elementId, stored.uid) := by
  simp [Shown]

instance (mails : List StoredMail) (elementId : String) (uid : Nat) : Decidable (Shown mails elementId uid) :=
  inferInstanceAs (Decidable (∃ stored ∈ mails, _))

/-- `load_cached_folder` would load the pairs of element id and UID that the
folder has in memory. -/
def SameAfterRestart (codec : MailCodec) (world : World) (folderId : String) : Prop :=
  ∃ loaded, cachedFolder codec world.localStore folderId = some loaded ∧ ∀ elementId uid,
      Shown loaded elementId uid ↔ Shown (world.store.getFolder folderId) elementId uid

/-- Memory and disk agree: a row's JSON is that of its own mail, and every folder
would be loaded as it is. -/
structure Agrees (codec : MailCodec) (world : World) : Prop where
  rows : ∀ row ∈ world.localStore.mails.rows, ∃ mail,
    codec.fromJson row.mailJson = some mail ∧ mail.elementId = some row.elementId
  folders : ∀ folderId, SameAfterRestart codec world folderId

/-! ## Agreement, row by row -/

/-- The columns of a row that a restart depends on. -/
def rowOf (store : LocalStore) (elementId : String) : Option (String × Nat × String) :=
  (store.mails.find? elementId).map fun row => (row.folderId, row.uid, row.mailJson)

/-- Agreement in terms of single rows: a folder shows a mail exactly when the
mail's row says so. -/
structure Mirrors (codec : MailCodec) (world : World) : Prop where
  parses : ∀ elementId row, rowOf world.localStore elementId = some row →
    ∃ mail, codec.fromJson row.2.2 = some mail ∧ mail.elementId = some elementId
  shows : ∀ folderId elementId uid, Shown (world.store.getFolder folderId) elementId uid ↔
    ∃ row, rowOf world.localStore elementId = some row ∧ row.1 = folderId ∧ row.2.1 % 2 ^ 32 = uid

/-- A total parse of a list succeeds, with the parses of its elements. -/
theorem mapM_of_isSome {α β : Type} {parse : α → Option β} {list : List α}
    (total : ∀ element ∈ list, (parse element).isSome) : ∃ parsed, list.mapM parse = some parsed ∧
      ∀ result, result ∈ parsed ↔ ∃ element ∈ list, parse element = some result := by
  induction list with
  | nil => exact ⟨[], rfl, by simp⟩
  | cons head rest ih =>
    obtain ⟨result, parsedHead⟩ := Option.isSome_iff_exists.mp (total head List.mem_cons_self)
    obtain ⟨parsed, parsedRest, members⟩ := ih
      fun element mem => total element (List.mem_cons_of_mem _ mem)
    refine ⟨result :: parsed, by simp [List.mapM_cons, parsedHead, parsedRest], fun other => ?_⟩
    simp [members, parsedHead, eq_comm]

theorem shown_cachedFolder_iff {codec : MailCodec} {store : LocalStore} (folderId : String)
    (rows : ∀ row ∈ store.mails.rows, ∃ mail,
      codec.fromJson row.mailJson = some mail ∧ mail.elementId = some row.elementId) :
    ∃ loaded, cachedFolder codec store folderId = some loaded ∧ ∀ elementId uid, Shown loaded elementId uid ↔
        ∃ row, rowOf store elementId = some row ∧ row.1 = folderId ∧ row.2.1 % 2 ^ 32 = uid := by
  have inFolder : ∀ row, row ∈ store.loadFolderMetadata folderId ↔
      row ∈ store.mails.rows ∧ row.folderId = folderId := by
    intro row
    simp [LocalStore.loadFolderMetadata, List.mem_insertionSort]
  have total : ∀ row ∈ store.loadFolderMetadata folderId, (cachedMail codec store row).isSome := by
    intro row mem
    obtain ⟨mail, parsed, _⟩ := rows row ((inFolder row).mp mem).1
    simp [cachedMail, parsed]
  obtain ⟨loaded, isLoaded, members⟩ := mapM_of_isSome total
  refine ⟨loaded, isLoaded, fun elementId uid => ?_⟩
  constructor
  · rintro ⟨stored, mem, sameId, sameUid⟩
    obtain ⟨row, rowMember, cached⟩ := (members stored).mp mem
    obtain ⟨inTable, rowFolder⟩ := (inFolder row).mp rowMember
    obtain ⟨mail, parsed, mailId⟩ := rows row inTable
    obtain ⟨other, otherParsed, rfl⟩ := Option.map_eq_some_iff.mp cached
    cases parsed.symm.trans otherParsed
    have rowKey : row.elementId = elementId := Option.some.inj (mailId.symm.trans sameId)
    have found : store.mails.find? elementId = some row :=
      Table.find?_eq_some_iff.mpr ⟨inTable, rowKey⟩
    exact ⟨_, by simp only [rowOf, found, Option.map_some]; rfl, rowFolder, sameUid⟩
  · rintro ⟨projected, isRow, rowFolder, sameUid⟩
    obtain ⟨row, found, rfl⟩ := Option.map_eq_some_iff.mp isRow
    obtain ⟨inTable, rowKey⟩ := Table.find?_eq_some_iff.mp found
    obtain ⟨mail, parsed, mailId⟩ := rows row inTable
    refine ⟨⟨mail, store.hasEml row.elementId, row.uid % 2 ^ 32, false⟩, ?_, ?_, sameUid⟩
    · exact (members _).mpr ⟨row, (inFolder row).mpr ⟨inTable, rowFolder⟩, by
        simp [cachedMail, parsed]⟩
    · exact mailId.trans (congrArg some rowKey)

theorem agrees_iff_mirrors {codec : MailCodec} {world : World} : Agrees codec world ↔ Mirrors codec world := by
  constructor
  · rintro ⟨rows, folders⟩
    constructor
    · intro elementId projected isRow
      obtain ⟨row, found, rfl⟩ := Option.map_eq_some_iff.mp isRow
      obtain ⟨inTable, rowKey⟩ := Table.find?_eq_some_iff.mp found
      rw [← rowKey]
      exact rows row inTable
    · intro folderId elementId uid
      obtain ⟨loaded, isLoaded, same⟩ := folders folderId
      obtain ⟨other, isOther, fromRows⟩ := shown_cachedFolder_iff folderId rows
      cases isLoaded.symm.trans isOther
      rw [← same, fromRows]
  · rintro ⟨parses, shows⟩
    have rows : ∀ row ∈ world.localStore.mails.rows, ∃ mail,
        codec.fromJson row.mailJson = some mail ∧ mail.elementId = some row.elementId := by
      intro row mem
      have found := Table.find?_of_mem mem
      exact parses row.elementId (row.folderId, row.uid, row.mailJson) (by simp [rowOf, found])
    refine ⟨rows, fun folderId => ?_⟩
    obtain ⟨loaded, isLoaded, fromRows⟩ := shown_cachedFolder_iff folderId rows
    refine ⟨loaded, isLoaded, fun elementId uid => ?_⟩
    rw [fromRows, shows]

namespace Mirrors

variable {codec : MailCodec} {world after : World}

/-- Only the folders and three columns of the rows matter. -/
theorem congr (mirrors : Mirrors codec world)
    (folders : ∀ folderId, after.store.getFolder folderId = world.store.getFolder folderId)
    (rows : ∀ elementId, rowOf after.localStore elementId = rowOf world.localStore elementId) :
    Mirrors codec after where
  parses elementId row isRow := mirrors.parses elementId row (by rw [← rows]; exact isRow)
  shows folderId elementId uid := by
    rw [folders, rows]
    exact mirrors.shows folderId elementId uid

/-- A mail in memory has a row, in the folder that holds it. -/
theorem row_of_holds (mirrors : Mirrors codec world) {folderId elementId : String}
    (held : world.store.Holds folderId elementId) :
    ∃ row, rowOf world.localStore elementId = some row ∧ row.1 = folderId := by
  obtain ⟨stored, mem, same⟩ := held
  obtain ⟨row, isRow, inFolder, _⟩ :=
    (mirrors.shows folderId elementId stored.uid).mp ⟨stored, mem, same, rfl⟩
  exact ⟨row, isRow, inFolder⟩

/-- Dropping mails from memory and their rows from disk, alike. -/
theorem of_removed (mirrors : Mirrors codec world) (drop : String → String → Prop)
    (folders : ∀ folderId elementId uid, Shown (after.store.getFolder folderId) elementId uid ↔
      Shown (world.store.getFolder folderId) elementId uid ∧ ¬ drop folderId elementId)
    (rows : ∀ elementId row, rowOf after.localStore elementId = some row ↔
      rowOf world.localStore elementId = some row ∧ ¬ drop row.1 elementId) :
    Mirrors codec after where
  parses elementId row isRow := mirrors.parses elementId row ((rows elementId row).mp isRow).1
  shows folderId elementId uid := by
    rw [folders, mirrors.shows]
    constructor
    · rintro ⟨⟨row, isRow, inFolder, sameUid⟩, kept⟩
      exact ⟨row, (rows elementId row).mpr ⟨isRow, inFolder ▸ kept⟩, inFolder, sameUid⟩
    · rintro ⟨row, isRow, inFolder, sameUid⟩
      obtain ⟨wasRow, kept⟩ := (rows elementId row).mp isRow
      exact ⟨⟨row, wasRow, inFolder, sameUid⟩, inFolder ▸ kept⟩

end Mirrors

/-! ## One step -/

section Steps

variable {env : Env} {world : World}

theorem shown_append_singleton (mails : List StoredMail) (last : StoredMail) (elementId : String) (uid : Nat) :
    Shown (mails ++ [last]) elementId uid ↔
      Shown mails elementId uid ∨ (last.elementId = some elementId ∧ last.uid = uid) := by
  simp only [Shown, List.mem_append, List.mem_singleton]
  constructor
  · rintro ⟨stored, mem | rfl, same⟩
    · exact .inl ⟨stored, mem, same⟩
    · exact .inr same
  · rintro (⟨stored, mem, same⟩ | same)
    · exact ⟨stored, .inl mem, same⟩
    · exact ⟨last, .inr rfl, same⟩

theorem shown_without (mails : List StoredMail) (dropped elementId : String) (uid : Nat) :
    Shown (MailStore.without dropped mails) elementId uid ↔ Shown mails elementId uid ∧ elementId ≠ dropped := by
  simp only [Shown, MailStore.mem_without_iff]
  constructor
  · rintro ⟨stored, ⟨mem, kept⟩, same, sameUid⟩
    exact ⟨⟨stored, mem, same, sameUid⟩, fun equal => kept (equal ▸ same)⟩
  · rintro ⟨⟨stored, mem, same, sameUid⟩, kept⟩
    refine ⟨stored, ⟨mem, ?_⟩, same, sameUid⟩
    rw [same]
    exact fun equal => kept (Option.some.inj equal)

/-- Placing a mail that has no row. -/
theorem mirrors_assignUidAndUpsert (diskOk : env.DiskOk) (codecKeeps : env.codec.KeepsElementIds)
    (mirrors : Mirrors env.codec world) (target : FolderInfo) (mailEid : String)
    (stored : StoredMail) (identified : stored.elementId = some elementId)
    (noRow : world.localStore.mails.find? elementId = none) :
    Mirrors env.codec (assignUidAndUpsert env target mailEid stored world) := by
  have absent : ¬ world.store.Holds target.id elementId := by
    intro held
    obtain ⟨row, isRow, _⟩ := mirrors.row_of_holds held
    simp [rowOf, noRow] at isRow
  have rows : ∀ id, rowOf (assignUidAndUpsert env target mailEid stored world).localStore id =
      if id = elementId then some (target.id, nextStamp world target.id, env.codec.toJson stored.mail)
      else rowOf world.localStore id := by
    intro id
    have key : (mailToMetadata env.codec stored.mail target.id
        (nextStamp world target.id)).elementId = elementId := by
      simp only [mailToMetadata]
      rw [show stored.mail.elementId = some elementId from identified]
      rfl
    rw [rowOf, assignUidAndUpsert_localStore diskOk, LocalStore.find?_upsertMailMetadata, key]
    change (if id = elementId then some ((world.localStore.mails.find? id).elim _ _)
      else world.localStore.mails.find? id).map _ = _
    by_cases same : id = elementId
    · simp [same, noRow, mailToMetadata]
    · simp [same, rowOf]
  have folders : ∀ folderId id uid,
      Shown ((assignUidAndUpsert env target mailEid stored world).store.getFolder folderId) id uid ↔
        Shown (world.store.getFolder folderId) id uid ∨
          (folderId = target.id ∧ id = elementId ∧ nextStamp world target.id = uid) := by
    intro folderId id uid
    rw [assignUidAndUpsert_store diskOk, MailStore.getFolder_upsertMailInFolder
      { stored with uid := nextStamp world target.id } identified]
    have appended : MailStore.upsertList { stored with uid := nextStamp world target.id } elementId
        (world.store.getFolder target.id) =
        world.store.getFolder target.id ++ [{ stored with uid := nextStamp world target.id }] := by
      rw [MailStore.upsertList, if_neg]
      intro any
      obtain ⟨other, mem, same⟩ := List.any_eq_true.mp any
      exact absent ⟨other, mem, by simpa using same⟩
    by_cases same : folderId = target.id
    · rw [if_pos same, appended, shown_append_singleton, same]
      have sameId : (StoredMail.elementId { stored with uid := nextStamp world target.id } = some id) ↔
          id = elementId := by
        change stored.elementId = some id ↔ _
        rw [identified, Option.some.injEq, eq_comm]
      rw [sameId]
      simp
    · simp [same]
  constructor
  · intro id row isRow
    rw [rows] at isRow
    split at isRow
    next same =>
      cases isRow
      obtain ⟨parsed, parses, parsedId⟩ := codecKeeps stored.mail
      exact ⟨parsed, parses, same ▸ parsedId.trans identified⟩
    next => exact mirrors.parses id row isRow
  · intro folderId id uid
    rw [folders, rows]
    by_cases same : id = elementId
    · subst same
      have notShown : ¬ Shown (world.store.getFolder folderId) id uid := by
        rw [mirrors.shows]
        rintro ⟨row, isRow, _⟩
        simp [rowOf, noRow] at isRow
      have stamp : nextStamp world target.id % 2 ^ 32 = nextStamp world target.id :=
        Nat.mod_mod _ _
      simp only [notShown, false_or, if_true, Option.some.injEq, exists_eq_left', true_and]
      rw [stamp]
      exact and_congr_left' eq_comm
    · simp [same, mirrors.shows]

/-- Forgetting a mail everywhere. -/
theorem mirrors_forgetMail (diskOk : env.DiskOk) (mirrors : Mirrors env.codec world)
    (elementId : String) : Mirrors env.codec (forgetMail env elementId world) := by
  refine mirrors.of_removed (fun _ id => id = elementId) ?_ ?_
  · intro folderId id uid
    rw [forgetMail_store, MailStore.getFolder_removeMailEverywhere, shown_without]
  · intro id row
    rw [rowOf, forgetMail_localStore diskOk]
    change ((world.localStore.deleteMailRow elementId).mails.find? id).map _ = _ ↔ _
    rw [LocalStore.find?_deleteMailRow]
    by_cases same : id = elementId <;> simp [same, rowOf]

/-- Taking a mail out of one folder. It is in one folder at most, so either its
row goes with it or its row is another folder's. -/
theorem mirrors_entryDelete (diskOk : env.DiskOk) (mirrors : Mirrors env.codec world)
    (folders : List FolderInfo) (ev : EntityUpdateEvent) :
    Mirrors env.codec (applyMailSetEntryDelete env folders world ev) := by
  obtain unchanged | ⟨_, mailEid, source, _, _, outcome⟩ := deleteOutcome env folders world ev
  · rw [unchanged]
    exact mirrors
  · have shown : ∀ folderId id uid,
        Shown ((world.store.removeMailFromFolder source.id mailEid).2.getFolder folderId) id uid ↔
          Shown (world.store.getFolder folderId) id uid ∧ ¬ (id = mailEid ∧ folderId = source.id) := by
      intro folderId id uid
      rw [MailStore.getFolder_removeMailFromFolder]
      by_cases same : folderId = source.id
      · rw [if_pos same, shown_without, same]
        simp
      · simp [same]
    rcases outcome with ⟨anywhere, after⟩ | ⟨nowhere, after⟩
    · rw [after]
      refine mirrors.of_removed (fun folderId id => id = mailEid ∧ folderId = source.id) shown ?_
      intro id row
      refine ⟨fun isRow => ⟨isRow, ?_⟩, And.left⟩
      rintro ⟨rfl, inSource⟩
      obtain ⟨folderId, held⟩ := MailStore.isMailAnywhere_iff.mp anywhere
      obtain ⟨elsewhere, wasHeld⟩ :=
        (MailStore.holds_removeMailFromFolder _ _ _ _ _).mp held
      obtain ⟨other, isOther, inFolder⟩ := mirrors.row_of_holds wasHeld
      cases isOther.symm.trans isRow
      exact elsewhere ⟨inFolder.symm.trans inSource, rfl⟩
    · rw [after]
      refine mirrors.of_removed (fun folderId id => id = mailEid ∧ folderId = source.id)
        (fun folderId id uid => ?_) ?_
      · rw [World.deleteMail_store]
        exact shown folderId id uid
      · intro id row
        rw [rowOf, World.deleteMail_localStore diskOk]
        change ((world.localStore.deleteMailRow mailEid).mails.find? id).map _ = _ ↔ _
        rw [LocalStore.find?_deleteMailRow]
        by_cases same : id = mailEid
        · subst same
          simp only [if_true, Option.map_none, reduceCtorEq, true_and, false_iff, not_and, not_not]
          intro isRow
          by_contra elsewhere
          obtain ⟨stored, mem, sameId, _⟩ :=
            (mirrors.shows row.1 id (row.2.1 % 2 ^ 32)).mpr ⟨row, isRow, rfl, rfl⟩
          have held : (world.store.removeMailFromFolder source.id id).2.Holds row.1 id :=
            (MailStore.holds_removeMailFromFolder _ _ _ _ _).mpr
              ⟨fun equal => elsewhere equal.1, stored, mem, sameId⟩
          have anywhere := MailStore.isMailAnywhere_iff.mpr ⟨row.1, held⟩
          simp only [World.mapStore_store] at nowhere
          rw [nowhere] at anywhere
          cases anywhere
        · simp [same, rowOf]

/-- Storing a new version of a mail changes neither its folder nor its UID. -/
theorem mirrors_refreshMail (diskOk : env.DiskOk) (codecKeeps : env.codec.KeepsElementIds)
    (mirrors : Mirrors env.codec world) {mail : Mail}
    (identified : mail.elementId = some elementId) : Mirrors env.codec (refreshMail env elementId mail world) := by
  have folders : ∀ folderId id uid,
      Shown ((refreshMail env elementId mail world).store.getFolder folderId) id uid ↔
        Shown (world.store.getFolder folderId) id uid := by
    intro folderId id uid
    have pairs : ((refreshMail env elementId mail world).store.getFolder folderId).map
        (fun stored => (stored.elementId, stored.uid)) =
        (world.store.getFolder folderId).map fun stored => (stored.elementId, stored.uid) := by
      rw [refreshMail, World.write_store, World.mapStore_store,
        MailStore.getFolder_refreshMailInPlace identified]
      exact MailStore.map_modifyFirst _ fun stored same => by
        rw [same]
        exact congrArg₂ Prod.mk identified rfl
    rw [shown_iff_mem, shown_iff_mem, pairs]
  have rows : ∀ id, rowOf (refreshMail env elementId mail world).localStore id =
      (rowOf world.localStore id).map fun row =>
        if id = elementId then (row.1, row.2.1, env.codec.toJson mail) else row := by
    intro id
    rw [rowOf, refreshMail, World.write_localStore diskOk, LocalStore.find?_refreshMailFields]
    cases found : world.localStore.mails.find? id with
    | none => simp [rowOf, found]
    | some row =>
      have rowKey : row.elementId = id := Table.key_of_find? found
      by_cases same : id = elementId
      · subst same
        simp [rowOf, found, rowKey]
      · simp [rowOf, found, rowKey, same]
  constructor
  · intro id row isRow
    rw [rows] at isRow
    obtain ⟨old, wasRow, rfl⟩ := Option.map_eq_some_iff.mp isRow
    split
    next same =>
      obtain ⟨parsed, parses, parsedId⟩ := codecKeeps mail
      exact ⟨parsed, parses, same ▸ parsedId.trans identified⟩
    next => exact mirrors.parses id old wasRow
  · intro folderId id uid
    rw [folders, mirrors.shows, rows]
    cases rowOf world.localStore id with
    | none => simp
    | some row =>
      simp only [Option.some.injEq, exists_eq_left', Option.map_some]
      split <;> rfl

theorem rowOf_dropFolders (diskOk : env.DiskOk) (ids : List String) (world : World) :
    (ids.foldl (dropFolder env) world).store = world.store ∧
      ∀ elementId row, rowOf (ids.foldl (dropFolder env) world).localStore elementId = some row ↔
        rowOf world.localStore elementId = some row ∧ row.1 ∉ ids := by
  induction ids generalizing world with
  | nil => simp
  | cons head rest ih =>
    obtain ⟨store, mails, _⟩ := dropFolder_facts diskOk head world
    obtain ⟨restStore, restRows⟩ := ih (dropFolder env world head)
    refine ⟨restStore.trans store, fun elementId row => ?_⟩
    rw [List.foldl_cons, restRows, rowOf, mails, rowOf]
    cases world.localStore.mails.find? elementId with
    | none => simp
    | some found =>
      by_cases inHead : found.folderId = head
      · simp only [Option.filter_some, inHead, ne_eq, not_true, decide_false,
          Bool.false_eq_true, if_false, Option.map_none, reduceCtorEq, false_and,
          Option.map_some, Option.some.injEq, List.mem_cons, false_iff, not_and]
        rintro rfl
        simp
      · simp only [Option.filter_some, inHead, ne_eq, not_false_eq_true, decide_true, if_true,
          Option.map_some, Option.some.injEq, List.mem_cons, not_or]
        constructor
        · rintro ⟨rfl, notRest⟩
          exact ⟨rfl, inHead, notRest⟩
        · rintro ⟨rfl, _, notRest⟩
          exact ⟨rfl, notRest⟩

/-- A folder that left the list leaves memory and the table together. -/
theorem mirrors_refreshFolderList (diskOk : env.DiskOk) (mirrors : Mirrors env.codec world) :
    Mirrors env.codec (refreshFolderList env world) := by
  unfold refreshFolderList
  dsimp only
  split
  next => exact mirrors.congr (fun _ => rfl) (fun _ => rfl)
  next folders _ =>
    obtain ⟨store, rows⟩ := rowOf_dropFolders diskOk
      ((world.store.setFolderList folders).pruneUnknownFolders (folders.map FolderInfo.id)).1
      { world with
        store :=
          ((world.store.setFolderList folders).pruneUnknownFolders (folders.map FolderInfo.id)).2
        tick := world.tick + 1 }
    refine mirrors.of_removed (fun folderId _ => folderId ∉ folders.map FolderInfo.id)
      (fun folderId elementId uid => ?_) (fun elementId row => ?_)
    · simp only [World.ask, World.mapStore]
      rw [store, MailStore.getFolder_pruneUnknownFolders, MailStore.getFolder_setFolderList]
      by_cases known : folderId ∈ folders.map FolderInfo.id <;> simp [known, Shown]
    · simp only [World.ask, World.mapStore]
      rw [rows, MailStore.mem_pruneUnknownFolders_iff]
      refine and_congr_right fun isRow => not_congr ?_
      refine ⟨And.right, fun unknown => ⟨?_, unknown⟩⟩
      obtain ⟨stored, mem, _⟩ :=
        (mirrors.shows row.1 elementId (row.2.1 % 2 ^ 32)).mpr ⟨row, isRow, rfl, rfl⟩
      exact MailStore.mem_keys_of_mem_getFolder mem

/-- No mail the server lists for the folder has a row in another folder. -/
def ListsOwnMails (env : Env) (world : World) (folder : FolderInfo) : Prop :=
  ∀ newMails, (listFolder env folder world).1 = .ok newMails →
    ∀ mail ∈ newMails, ∀ elementId row, mail.elementId = some elementId →
      world.localStore.mails.find? elementId = some row → row.folderId = folder.id

/-- The row of a listed mail after the sync of its folder. -/
theorem rowOf_listed (diskOk : env.DiskOk) (mirrors : Mirrors env.codec world)
    {folder : FolderInfo} {newMails : List Mail} (listed : (listFolder env folder world).1 = .ok newMails)
    (identified : ∀ mail ∈ newMails, mail.elementId.isSome) (own : ListsOwnMails env world folder)
    (isListed : elementId ∈ newMails.filterMap Mail.elementId) :
    ∃ row, rowOf (syncFolder env folder world).2.localStore elementId = some row ∧ row.1 = folder.id ∧
      (∃ mail, mail.elementId = some elementId ∧ row.2.2 = env.codec.toJson mail) ∧
      ∀ mail ∈ newMails, mail.elementId = some elementId →
        syncedUid (world.store.getFolder folder.id)
        (listedUids world folder.id newMails) mail = row.2.1 % 2 ^ 32 := by
  have metaId : ∀ mail ∈ newMails, ∀ uid id, mail.elementId = some id →
      (mailToMetadata env.codec mail folder.id uid).elementId = id := by
    intro mail _ uid id same
    simp [mailToMetadata, same]
  have inMetas : elementId ∈ (listedMetas env world folder.id newMails).map MailMetadata.elementId := by
    rw [elementIds_listedMetas identified]
    exact isListed
  obtain ⟨row, found, ⟨metadata, mem, sameKey, inFolder, json⟩, uid⟩ :=
    find?_upsertBatch_of_mem world.localStore.mails inMetas
  have metaMail : ∀ metadata ∈ listedMetas env world folder.id newMails,
      metadata.elementId = elementId → ∃ mail ∈ newMails, mail.elementId = some elementId ∧
        metadata = mailToMetadata env.codec mail folder.id (syncedUid
          (world.store.getFolder folder.id) (listedUids world folder.id newMails) mail) := by
    intro metadata mem sameKey
    obtain ⟨mail, mailMember, rfl⟩ := List.mem_map.mp mem
    obtain ⟨id, mailId⟩ := Option.isSome_iff_exists.mp (identified mail mailMember)
    rw [metaId mail mailMember _ _ mailId] at sameKey
    exact ⟨mail, mailMember, sameKey ▸ mailId, rfl⟩
  -- listed mails of one id get one UID
  have sameUid : ∀ left right : Mail, left.elementId = right.elementId →
      syncedUid (world.store.getFolder folder.id) (listedUids world folder.id newMails) left =
        syncedUid (world.store.getFolder folder.id) (listedUids world folder.id newMails) right := by
    intro left right same
    simp only [syncedUid, same]
  have rowFound : rowOf (syncFolder env folder world).2.localStore elementId =
      some (row.folderId, row.uid, row.mailJson) := by
    rw [rowOf, find?_syncFolder_of_ok diskOk listed, LocalStore.upsertMailMetadataBatch, found]
    simp [isListed]
  obtain ⟨mail, mailMember, mailId, rfl⟩ := metaMail metadata mem sameKey
  refine ⟨_, rowFound, inFolder, ⟨mail, mailId, json⟩, fun other otherMember otherId => ?_⟩
  rw [sameUid other mail (otherId.trans mailId.symm)]
  rcases uid with ⟨old, oldRow, keptUid⟩ | ⟨missing, fresh, freshMember, freshKey, freshUid⟩
  · have oldFolder := own newMails listed mail mailMember elementId old mailId oldRow
    have isOld : rowOf world.localStore elementId = some (old.folderId, old.uid, old.mailJson) := by
      simp [rowOf, oldRow]
    have wasShown := (mirrors.shows folder.id elementId (old.uid % 2 ^ 32)).mpr ⟨_, isOld, oldFolder, rfl⟩
    rcases syncedUid_cases world folder.id mailMember mailId with
      ⟨stored, inMemory, storedId, kept⟩ | ⟨unseen, _⟩
    · obtain ⟨current, isCurrent, _, currentUid⟩ :=
        (mirrors.shows folder.id elementId stored.uid).mp ⟨stored, inMemory, storedId, rfl⟩
      cases isOld.symm.trans isCurrent
      rw [kept, keptUid]
      exact currentUid.symm
    · obtain ⟨stored, inMemory, storedId, _⟩ := wasShown
      exact absurd storedId (unseen stored inMemory)
  · obtain ⟨freshMail, _, freshId, rfl⟩ := metaMail fresh freshMember freshKey
    rw [freshUid]
    change _ = syncedUid _ _ freshMail % 2 ^ 32
    rw [sameUid freshMail mail (freshId.trans mailId.symm)]
    rcases syncedUid_cases world folder.id mailMember mailId with
      ⟨stored, inMemory, storedId, _⟩ | ⟨_, index, _, value⟩
    · obtain ⟨current, isCurrent, _⟩ := mirrors.row_of_holds ⟨stored, inMemory, storedId⟩
      simp [rowOf, missing] at isCurrent
    · rw [value, Nat.mod_mod]

/-- The row of a mail that is not listed stays, unless it was in the folder. -/
theorem rowOf_unlisted (diskOk : env.DiskOk) {folder : FolderInfo} {newMails : List Mail}
    (listed : (listFolder env folder world).1 = .ok newMails)
    (identified : ∀ mail ∈ newMails, mail.elementId.isSome)
    (unlisted : elementId ∉ newMails.filterMap Mail.elementId) (row : String × Nat × String) :
    rowOf (syncFolder env folder world).2.localStore elementId = some row ↔
      rowOf world.localStore elementId = some row ∧ row.1 ≠ folder.id := by
  have notMeta : elementId ∉ (listedMetas env world folder.id newMails).map MailMetadata.elementId := by
    rw [elementIds_listedMetas identified]
    exact unlisted
  rw [rowOf, find?_syncFolder_of_ok diskOk listed, LocalStore.upsertMailMetadataBatch,
    find?_upsertBatch_of_not_mem notMeta, rowOf]
  cases world.localStore.mails.find? elementId with
  | none => simp
  | some found =>
    by_cases inFolder : found.folderId = folder.id
    · simp only [Option.filter_some, inFolder, unlisted, ne_eq, not_true, or_self,
        decide_false, Bool.false_eq_true, if_false, Option.map_none, reduceCtorEq,
        Option.map_some, Option.some.injEq, false_iff, not_and, not_not]
      rintro rfl
      rfl
    · simp only [Option.filter_some, inFolder, ne_eq, not_false_eq_true, true_or,
        decide_true, if_true, Option.map_some, Option.some.injEq]
      refine ⟨fun isRow => ⟨isRow, ?_⟩, And.left⟩
      subst isRow
      exact inFolder

/-- Replacing a folder by a listing of its own mails. -/
theorem mirrors_syncFolder (diskOk : env.DiskOk) (codecKeeps : env.codec.KeepsElementIds)
    (faithful : Faithful env.backend) (mirrors : Mirrors env.codec world) (folder : FolderInfo)
    (own : ListsOwnMails env world folder) : Mirrors env.codec (syncFolder env folder world).2 := by
  cases listed : (listFolder env folder world).1 with
  | error message =>
    obtain ⟨store, localStore⟩ := syncFolder_of_error listed
    exact mirrors.congr (fun _ => by rw [store]) (fun _ => by rw [localStore])
  | ok newMails =>
    obtain ⟨tick, answered⟩ := retry_eq_ok_imp listed
    have identified := faithful.listed tick folder newMails answered
    have shown : ∀ folderId elementId uid,
        Shown ((syncFolder env folder world).2.store.getFolder folderId) elementId uid ↔
          if folderId = folder.id then ∃ mail ∈ newMails, mail.elementId = some elementId ∧
            syncedUid (world.store.getFolder folder.id) (listedUids world folder.id newMails) mail = uid
          else Shown (world.store.getFolder folderId) elementId uid := by
      intro folderId elementId uid
      rw [(syncFolder_of_ok diskOk listed).1, MailStore.getFolder_setFolder]
      split
      · simp [Shown, listedMails]
      · rfl
    constructor
    · intro elementId row isRow
      by_cases isListed : elementId ∈ newMails.filterMap Mail.elementId
      · obtain ⟨listedRow, isListedRow, _, ⟨mail, mailId, json⟩, _⟩ :=
          rowOf_listed diskOk mirrors listed identified own isListed
        cases isListedRow.symm.trans isRow
        obtain ⟨parsed, parses, parsedId⟩ := codecKeeps mail
        exact ⟨parsed, json ▸ parses, parsedId.trans mailId⟩
      · exact mirrors.parses elementId row ((rowOf_unlisted diskOk listed identified isListed row).mp isRow).1
    · intro folderId elementId uid
      rw [shown]
      by_cases isListed : elementId ∈ newMails.filterMap Mail.elementId
      · obtain ⟨row, isRow, inFolder, _, listedUid⟩ :=
          rowOf_listed diskOk mirrors listed identified own isListed
        obtain ⟨mail, mailMember, mailId⟩ := List.mem_filterMap.mp isListed
        simp only [isRow, Option.some.injEq, exists_eq_left']
        by_cases same : folderId = folder.id
        · rw [if_pos same, same]
          constructor
          · rintro ⟨other, otherMember, otherId, rfl⟩
            exact ⟨inFolder, (listedUid other otherMember otherId).symm⟩
          · rintro ⟨_, rfl⟩
            exact ⟨mail, mailMember, mailId, listedUid mail mailMember mailId⟩
        · rw [if_neg same, mirrors.shows]
          constructor
          · rintro ⟨old, isOld, oldFolder, _⟩
            obtain ⟨oldRow, found, rfl⟩ := Option.map_eq_some_iff.mp isOld
            have := own newMails listed mail mailMember elementId oldRow mailId found
            exact absurd (oldFolder.symm.trans this) same
          · rintro ⟨isFolder, _⟩
            exact absurd (isFolder.symm.trans inFolder) same
      · by_cases same : folderId = folder.id
        · rw [if_pos same]
          constructor
          · rintro ⟨mail, mailMember, mailId, _⟩
            exact absurd (List.mem_filterMap.mpr ⟨mail, mailMember, mailId⟩) isListed
          · rintro ⟨row, isRow, isFolder, _⟩
            exact absurd (isFolder.trans same) ((rowOf_unlisted diskOk listed identified isListed row).mp isRow).2
        · rw [if_neg same, mirrors.shows]
          constructor
          · rintro ⟨row, isRow, isFolder, sameUid⟩
            exact ⟨row, (rowOf_unlisted diskOk listed identified isListed row).mpr
              ⟨isRow, fun equal => same (isFolder.symm.trans equal)⟩, isFolder, sameUid⟩
          · rintro ⟨row, isRow, isFolder, sameUid⟩
            exact ⟨row, ((rowOf_unlisted diskOk listed identified isListed row).mp isRow).1, isFolder, sameUid⟩

theorem rowOf_markHasDetails (store : LocalStore) (elementId id : String) :
    rowOf (store.markHasDetails elementId) id = rowOf store id := by
  rw [rowOf, LocalStore.find?_markHasDetails, Option.map_map, rowOf]
  cases store.mails.find? id with
  | none => rfl
  | some row =>
    simp only [Option.map_some, Function.comp_apply]
    split <;> rfl

theorem find?_eq_none_of_rowOf {store after : LocalStore} {id : String}
    (same : rowOf after id = rowOf store id) (missing : store.mails.find? id = none) :
    after.mails.find? id = none := by
  have noRow : rowOf after id = none := by rw [same, rowOf, missing, Option.map_none]
  exact Option.map_eq_none_iff.mp noRow

theorem mirrors_applyInlineCreate (diskOk : env.DiskOk) (codecKeeps : env.codec.KeepsElementIds)
    (mirrors : Mirrors env.codec world) (target : FolderInfo) {mailEid : String}
    {pending : PendingMail} (identified : pending.mail.elementId = some mailEid)
    (noRow : world.localStore.mails.find? mailEid = none) :
    Mirrors env.codec (applyInlineCreate env target mailEid pending world) := by
  unfold applyInlineCreate
  dsimp only
  split
  · exact mirrors_assignUidAndUpsert diskOk codecKeeps mirrors target mailEid _ identified noRow
  next eml _ =>
    obtain ⟨folders, localStore⟩ :=
      persistInlineBody_facts diskOk mailEid pending.details eml world
    have rows : ∀ id, rowOf (persistInlineBody env mailEid pending.details eml world).localStore id =
          rowOf world.localStore id := by
      intro id
      rw [localStore, rowOf_markHasDetails]
      rfl
    exact mirrors_assignUidAndUpsert diskOk codecKeeps (mirrors.congr folders rows) target mailEid
      _ identified (find?_eq_none_of_rowOf (rows mailEid) noRow)

/-- The mail a create would place has no row yet. -/
def CreateFindsNoRow (folders : List FolderInfo) (run : BatchRun) (ev : EntityUpdateEvent) : Prop :=
  ∀ at_ mailEid target, MailSetEntryId.deconstruct ev.instanceId = .ok (at_, mailEid) →
    folderByEntries folders ev.instanceListId = some target →
    run.world.localStore.mails.find? mailEid = none

/-- A create of a mail without a row keeps the agreement. -/
theorem mirrors_create (diskOk : env.DiskOk) (codecKeeps : env.codec.KeepsElementIds)
    (faithful : Faithful env.backend) {folders : List FolderInfo} {ev : EntityUpdateEvent}
    (faithfulEvent : FaithfulEvent env.backend ev) {run : BatchRun}
    (mirrors : Mirrors env.codec run.world) (pending : PendingFaithful run.pending)
    (noRow : CreateFindsNoRow folders run ev) : Mirrors env.codec (applyMailSetEntryCreate env folders run ev).world ∧
      PendingFaithful (applyMailSetEntryCreate env folders run ev).pending := by
  obtain ⟨sameStore, sameDisk⟩ := resolveMailSetEntry_stores env ev run.world
  obtain ⟨requestedStore, requestedDisk⟩ := requested_stores env ev run.world
  have asked : ∀ after : World, after.store = run.world.store →
      after.localStore = run.world.localStore → Mirrors env.codec after := by
    intro after store localStore
    exact mirrors.congr (fun _ => by rw [store]) (fun _ => by rw [localStore])
  have outcome := createOutcome env folders run ev
  generalize applyMailSetEntryCreate env folders run ev = after at outcome ⊢
  cases outcome with
  | unplaced => exact ⟨mirrors, pending⟩
  | cached decoded known located =>
    have identified := (MailStore.findMailAnywhere_eq_some_imp located).2
    exact ⟨mirrors_assignUidAndUpsert diskOk codecKeeps mirrors _ _ _ identified
      (noRow _ _ _ decoded known), pending⟩
  | inlined decoded known _ held =>
    exact ⟨mirrors_applyInlineCreate diskOk codecKeeps mirrors _ (pending _ _ held)
      (noRow _ _ _ decoded known), pending.erase _⟩
  | unresolved => exact ⟨asked _ sameStore sameDisk, pending⟩
  | @loaded _ mailEid _ id mail decoded known _ _ entry answered =>
    have isMail := resolveMailSetEntry_elementId faithfulEvent entry decoded
    have identified : mail.elementId = some mailEid :=
      isMail ▸ faithful.loaded _ _ _ _ answered
    have missing := noRow _ _ _ decoded known
    rw [← requestedDisk] at missing
    exact ⟨mirrors_assignUidAndUpsert diskOk codecKeeps
      (asked (requested env ev run.world) requestedStore requestedDisk) _ _ (newlyStored mail)
      identified missing, pending⟩
  | gone => exact ⟨asked _ requestedStore requestedDisk, pending⟩
  | failed => exact ⟨asked _ requestedStore requestedDisk, pending⟩

theorem mirrors_mailEvent (diskOk : env.DiskOk) (codecKeeps : env.codec.KeepsElementIds)
    (faithful : Faithful env.backend) {ev : EntityUpdateEvent}
    (faithfulEvent : FaithfulEvent env.backend ev) (mirrors : Mirrors env.codec world) :
    Mirrors env.codec (applyMailEvent env world ev) := by
  obtain unchanged | ⟨start, store, localStore, after⟩ | ⟨mail, resolved, after⟩ :=
    mailEventOutcome env world ev
  · rw [unchanged]
    exact mirrors
  · rw [after]
    exact mirrors_forgetMail diskOk (mirrors.congr (fun _ => by rw [store]) (fun _ => by rw [localStore])) _
  · rw [after]
    obtain ⟨store, localStore⟩ := resolveMail_stores env ev world
    exact mirrors_refreshMail diskOk codecKeeps
      (mirrors.congr (fun _ => by rw [store]) (fun _ => by rw [localStore]))
      (resolveMail_elementId faithful faithfulEvent resolved)

end Steps

/-! ## Batches and runs -/

/-- The operations of a run. -/
inductive BridgeOp where
  | applyBatch (batch : EntityUpdateBatch)
  | syncFolder (folder : FolderInfo)
deriving DecidableEq

def BridgeOp.apply (env : Env) (world : World) : BridgeOp → World
  | .applyBatch batch => Events.applyBatch env batch world
  | .syncFolder folder => (Sync.syncFolder env folder world).2

/-- No step of the operation places a mail that has a row, other than in the
folder of the row by a sync: each create finds no row of its mail, and each sync
lists mails without a row elsewhere. -/
def BridgeOp.PlacesNewMails (env : Env) (world : World) : BridgeOp → Prop
  | .applyBatch batch =>
    let folders := batchFolders env batch world
    let bucketed := bucketUpdates batch.updates
    let updated := applyDeletes env batch world
    Guarded (applyMailSetEntryCreate env folders) (CreateFindsNoRow folders)
        (beginBatch env bucketed world) bucketed.mailSetEntryCreates ∧
      Guarded (fallbackSync env folders)
        (fun world entriesListId => ∀ folder, folderByEntries folders entriesListId = some folder →
          ListsOwnMails env world folder)
        updated (env.hashOrder updated.tick (applyCreates env batch world).fallbackFolders)
  | .syncFolder folder => ListsOwnMails env world folder

/-- The payloads of the operation's events are what their ids say. -/
def BridgeOp.FaithfulEvents (backend : MailBackend) : BridgeOp → Prop
  | .applyBatch batch => ∀ ev ∈ batch.updates, FaithfulEvent backend ev
  | .syncFolder _ => True

section Runs

variable {env : Env} {world : World}

/-- The refresh of the folder list and the decryption of inlined mails. -/
theorem mirrors_beginBatch (diskOk : env.DiskOk) {batch : EntityUpdateBatch}
    (faithfulEvents : ∀ ev ∈ batch.updates, FaithfulEvent env.backend ev) (mirrors : Mirrors env.codec world) :
    Mirrors env.codec (beginBatch env (bucketUpdates batch.updates) world).world ∧
      PendingFaithful (beginBatch env (bucketUpdates batch.updates) world).pending := by
  have refreshed : Mirrors env.codec (if (bucketUpdates batch.updates).folderListDirty = true
      then refreshFolderList env world else world) := by
    split
    · exact mirrors_refreshFolderList diskOk mirrors
    · exact mirrors
  have faithfulCreates : ∀ ev ∈ (bucketUpdates batch.updates).mailCreates, FaithfulEvent env.backend ev := by
    rw [bucketUpdates_eq]
    exact fun ev mem => faithfulEvents ev (List.mem_of_mem_filter mem)
  obtain ⟨pending, store, localStore⟩ := predecryptMailCreates_facts faithfulCreates
    (if (bucketUpdates batch.updates).folderListDirty = true then refreshFolderList env world
      else world)
  refine ⟨refreshed.congr (fun folderId => ?_) (fun elementId => ?_), pending⟩
  · exact congrArg (MailStore.getFolder · folderId) store
  · exact congrArg (rowOf · elementId) localStore

/-- A batch that places only new mails keeps the agreement. -/
theorem mirrors_applyBatch (diskOk : env.DiskOk) (codecKeeps : env.codec.KeepsElementIds)
    (faithful : Faithful env.backend) {batch : EntityUpdateBatch}
    (faithfulEvents : ∀ ev ∈ batch.updates, FaithfulEvent env.backend ev) (mirrors : Mirrors env.codec world)
    (places : (BridgeOp.applyBatch batch).PlacesNewMails env world) :
    Mirrors env.codec (applyBatch env batch world) := by
  obtain ⟨creates, fallbacks⟩ := places
  have created : Mirrors env.codec (applyCreates env batch world).world ∧
      PendingFaithful (applyCreates env batch world).pending := by
    have faithfulCreates : ∀ ev ∈ (bucketUpdates batch.updates).mailSetEntryCreates,
        FaithfulEvent env.backend ev := by
      rw [bucketUpdates_eq]
      exact fun ev mem => faithfulEvents ev (List.mem_of_mem_filter mem)
    refine Guarded.foldl_invariant (fun run : BatchRun =>
      Mirrors env.codec run.world ∧ PendingFaithful run.pending) ?_
      (mirrors_beginBatch diskOk faithfulEvents mirrors) (creates.and_forall faithfulCreates)
    rintro run ev ⟨mirrors, pending⟩ ⟨noRow, faithfulEvent⟩
    exact mirrors_create diskOk codecKeeps faithful faithfulEvent mirrors pending noRow
  have deleted : Mirrors env.codec ((bucketUpdates batch.updates).mailSetEntryDeletes.foldl
      (applyMailSetEntryDelete env (batchFolders env batch world))
      (applyCreates env batch world).world) := by
    refine List.foldlRecOn _ _ created.1 ?_
    intro world mirrors ev _
    exact mirrors_entryDelete diskOk mirrors _ ev
  have updated : Mirrors env.codec (applyDeletes env batch world) := by
    refine List.foldlRecOn _ _ deleted ?_
    intro world mirrors ev mem
    have faithfulEvent : FaithfulEvent env.backend ev := by
      rw [bucketUpdates_eq] at mem
      exact faithfulEvents ev (List.mem_of_mem_filter mem)
    exact mirrors_mailEvent diskOk codecKeeps faithful faithfulEvent mirrors
  refine Guarded.foldl_invariant (Mirrors env.codec) ?_ updated fallbacks
  intro world entriesListId mirrors own
  unfold fallbackSync
  split
  · exact mirrors
  next folder known =>
    exact mirrors_syncFolder diskOk codecKeeps faithful mirrors folder (own folder known)

theorem mirrors_apply (diskOk : env.DiskOk) (codecKeeps : env.codec.KeepsElementIds)
    (faithful : Faithful env.backend) {op : BridgeOp} (faithfulEvents : op.FaithfulEvents env.backend)
    (mirrors : Mirrors env.codec world) (places : op.PlacesNewMails env world) :
    Mirrors env.codec (op.apply env world) := by
  cases op with
  | applyBatch batch =>
    exact mirrors_applyBatch diskOk codecKeeps faithful faithfulEvents mirrors places
  | syncFolder folder => exact mirrors_syncFolder diskOk codecKeeps faithful mirrors folder places

end Runs

/-- In every run of batches and syncs that places only new mails, every folder of
every state reached would be loaded from disk with the UIDs it has in memory. -/
theorem restart_shows_same_uids {env : Env} (diskOk : env.DiskOk)
    (codecKeeps : env.codec.KeepsElementIds) (faithful : Faithful env.backend) {world : World}
    (agrees : Agrees env.codec world) {run : List BridgeOp}
    (faithfulEvents : ∀ op ∈ run, op.FaithfulEvents env.backend)
    (places : Guarded (BridgeOp.apply env) (BridgeOp.PlacesNewMails env) world run) :
    ∀ folderId, SameAfterRestart env.codec (run.foldl (BridgeOp.apply env) world) folderId := by
  have mirrors : Mirrors env.codec (run.foldl (BridgeOp.apply env) world) := by
    refine Guarded.foldl_invariant (Mirrors env.codec) ?_ (agrees_iff_mirrors.mp agrees)
      (places.and_forall faithfulEvents)
    rintro world op mirrors ⟨places, faithfulOp⟩
    exact mirrors_apply diskOk codecKeeps faithful faithfulOp mirrors places
  exact (agrees_iff_mirrors.mpr mirrors).folders

theorem emptyWorld_agrees (codec : MailCodec) (folders : List FolderInfo) :
    Agrees codec (sampleWorld folders []) := by
  constructor
  · intro row mem
    cases mem
  · intro folderId
    exact ⟨[], rfl, fun elementId uid => Iff.rfl⟩

/-- A new mail arrives in an empty inbox, and a full sync finds a second one. -/
theorem restart_shows_new_mails :
    let env := quietEnv (listingBackend [] [sampleMail "a", sampleMail entryMail])
    let inbox := sampleFolder "inbox" "inboxEntries"
    let run := [.applyBatch ⟨"b1", "g1", [entryEvent "inboxEntries" .create]⟩, .syncFolder inbox]
    SameAfterRestart env.codec (run.foldl (BridgeOp.apply env) (sampleWorld [inbox] [])) "inbox" := by
  intro env inbox run
  have faithful : Faithful env.backend := listingBackend_faithful (by decide)
  have faithfulEvents : ∀ op ∈ run, op.FaithfulEvents env.backend := by
    intro op mem
    simp only [run, List.mem_cons, List.not_mem_nil, or_false] at mem
    rcases mem with rfl | rfl
    · intro ev mem
      cases List.mem_singleton.mp mem
      exact entryEvent_faithful _ _ _ _
    · trivial
  have creates : (bucketUpdates [entryEvent "inboxEntries" .create]).mailSetEntryCreates =
      [entryEvent "inboxEntries" .create] := by decide
  have noFallback : (applyCreates env ⟨"b1", "g1", [entryEvent "inboxEntries" .create]⟩
      (sampleWorld [inbox] [])).fallbackFolders = [] := by decide +kernel
  have inInbox : ∀ row ∈ (applyBatch env ⟨"b1", "g1", [entryEvent "inboxEntries" .create]⟩
      (sampleWorld [inbox] [])).localStore.mails.rows, row.folderId = "inbox" := by decide +kernel
  have places : Guarded (BridgeOp.apply env) (BridgeOp.PlacesNewMails env) (sampleWorld [inbox] [])
      run := by
    refine ⟨⟨?_, ?_⟩, ?_, trivial⟩
    · rw [creates]
      exact ⟨fun _ _ _ _ _ => rfl, trivial⟩
    · rw [noFallback]
      trivial
    · intro newMails _ mail _ elementId row _ found
      exact inInbox row (Table.mem_of_find? found)
  exact restart_shows_same_uids (quietEnv_diskOk _) idCodec_keepsElementIds faithful
    (emptyWorld_agrees _ _) faithfulEvents places "inbox"

/-- A mail with UID 7 in the inbox, and an archive that has not handed out a UID. -/
def movingWorld : World :=
  sampleWorld [sampleFolder "inbox" "inboxEntries", sampleFolder "archive" "archiveEntries"]
    [("inbox", [sampleStored entryMail 7])]

theorem movingWorld_agrees : Agrees idCodec movingWorld := by
  have rows : movingWorld.localStore.mails.rows =
      [mailToMetadata idCodec (sampleMail entryMail) "inbox" 7] := by decide
  refine ⟨fun row mem => ?_, fun folderId => ?_⟩
  · rw [rows, List.mem_singleton] at mem
    subst mem
    exact idCodec_keepsElementIds (sampleMail entryMail)
  · by_cases isInbox : folderId = "inbox"
    · subst isInbox
      obtain ⟨loaded, isLoaded⟩ := Option.isSome_iff_exists.mp
        (show (cachedFolder idCodec movingWorld.localStore "inbox").isSome by decide)
      refine ⟨loaded, isLoaded, fun elementId uid => ?_⟩
      have pairs : (cachedFolder idCodec movingWorld.localStore "inbox").map
          (List.map fun stored => (stored.elementId, stored.uid)) =
          some ((movingWorld.store.getFolder "inbox").map
            fun stored => (stored.elementId, stored.uid)) := by decide
      rw [isLoaded, Option.map_some, Option.some.injEq] at pairs
      rw [shown_iff_mem, shown_iff_mem, pairs]
    · refine ⟨[], ?_, fun elementId uid => ?_⟩
      · have noRows : movingWorld.localStore.loadFolderMetadata folderId = [] := by
          have other : ¬ "inbox" = folderId := fun same => isInbox same.symm
          simp [LocalStore.loadFolderMetadata, rows, mailToMetadata, other]
        simp [cachedFolder, noRows]
      · have empty : movingWorld.store.getFolder folderId = [] := by
          have keys : movingWorld.store.folders.keys = ["inbox"] := by decide
          have absent : folderId ∉ movingWorld.store.folders.keys := by simpa [keys] using isInbox
          rw [Dict.mem_keys_iff, Option.not_isSome_iff_eq_none] at absent
          simp [MailStore.getFolder, absent]
        rw [empty]

/-- A MOVE: the archive shows the mail under UID 1 until the restart, and under
UID 7 after it. -/
theorem move_changes_uid_at_restart :
    let env := quietEnv (listingBackend [] [sampleMail entryMail])
    let batch : EntityUpdateBatch := ⟨"b1", "g1",
      [entryEvent "archiveEntries" .create, entryEvent "inboxEntries" .delete]⟩
    Agrees env.codec movingWorld ∧ Faithful env.backend ∧
      (∀ ev ∈ batch.updates, FaithfulEvent env.backend ev) ∧
      ¬ SameAfterRestart env.codec (applyBatch env batch movingWorld) "archive" := by
  intro env batch
  refine ⟨movingWorld_agrees, listingBackend_faithful (by decide), ?_, ?_⟩
  · intro ev mem
    simp only [batch, List.mem_cons, List.not_mem_nil, or_false] at mem
    rcases mem with rfl | rfl
    · exact entryEvent_faithful _ _ _ _
    · exact entryEvent_faithful _ _ _ _
  · rintro ⟨loaded, isLoaded, same⟩
    have pairs : (cachedFolder env.codec (applyBatch env batch movingWorld).localStore
        "archive").map (List.map fun stored => (stored.elementId, stored.uid)) =
        some [(some entryMail, 7)] := by decide +kernel
    rw [isLoaded, Option.map_some, Option.some.injEq] at pairs
    have reloaded : Shown loaded entryMail 7 := by
      rw [shown_iff_mem, pairs]
      decide
    have inMemory := (same entryMail 7).mp reloaded
    revert inMemory
    decide +kernel

end TutaBridge.Runs
