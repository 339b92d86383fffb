import TutaBridge.Events.HandlerFacts
import TutaBridge.Std.Absorbing

/-!
# Mail events as changes

Against a server whose answers do not change, a `Mail` UPDATE or DELETE is a
fixed change of the mail it names: every copy and the row get one version, or
all of them go. A later change of the same mail overwrites an earlier one, so a
list of mail events may be applied twice.
-/

namespace TutaBridge.Events

open TutaBridge.Std Tuta Store Bridge Sync

variable (codec : MailCodec)

/-- The answers of the server do not depend on when it is asked. -/
structure Steady (backend : MailBackend) : Prop where
  listed : ∀ tick folder, backend.loadMailIdsForFolder tick folder = backend.loadMailIdsForFolder 0 folder
  loaded : ∀ tick listId elementId,
    backend.loadMail tick listId elementId = backend.loadMail 0 listId elementId
  mail : ∀ tick json, backend.decryptInlineMail tick json = backend.decryptInlineMail 0 json
  entry : ∀ tick json, backend.decryptInlineMailSetEntry tick json = backend.decryptInlineMailSetEntry 0 json
  details : ∀ tick json,
    backend.decryptInlineMailDetailsBlob tick json = backend.decryptInlineMailDetailsBlob 0 json

/-- What a `Mail` event does to the mail it names. -/
inductive MailChange where
  | forget (elementId : String)
  | refresh (elementId : String) (mail : Mail) (identified : mail.elementId = some elementId)

namespace MailChange

/-- The change of a folder. -/
def onMails (mails : List StoredMail) : MailChange → List StoredMail
  | .forget elementId => MailStore.without elementId mails
  | .refresh elementId mail _ =>
    MailStore.modifyFirst elementId (fun stored => { stored with mail := mail }) mails

/-- A row with the fields of a new version of its mail. -/
def refreshRow (codec : MailCodec) (mail : Mail) (row : MailMetadata) : MailMetadata :=
  { row with
    subject := mail.subject
    senderName := mail.sender.name
    senderAddress := mail.sender.address
    unread := mail.unread
    mailJson := codec.toJson mail }

/-- The change of the row of a mail. -/
def onRow (codec : MailCodec) (id : String) (row : Option MailMetadata) : MailChange → Option MailMetadata
  | .forget elementId => if id = elementId then none else row
  | .refresh elementId mail _ => if id = elementId then row.map (refreshRow codec mail) else row

/-- A new version of a mail has its id. -/
theorem refreshed_elementId {elementId : String} {mail : Mail}
    (identified : mail.elementId = some elementId) (stored : StoredMail)
    (_ : stored.elementId = some elementId) :
    StoredMail.elementId { stored with mail := mail } = some elementId := identified

/-- Of the changes of one mail, a folder shows the last. -/
theorem onMails_absorbing : Absorbing onMails where
  repeated mails change := by
    cases change with
    | forget elementId => simp [onMails, MailStore.without, List.filter_filter]
    | refresh elementId mail identified =>
      exact MailStore.modifyFirst_modifyFirst (refreshed_elementId identified) mails
  absorbed mails change other := by
    cases change with
    | forget elementId =>
      cases other with
      | forget otherId =>
        simp only [onMails, MailStore.without, List.filter_filter]
        exact List.filter_congr fun stored _ => by
          cases decide (stored.elementId ≠ some elementId) <;> simp
      | refresh otherId mail identified =>
        have keeps := refreshed_elementId identified
        simp only [onMails]
        by_cases same : elementId = otherId
        · subst same
          rw [MailStore.without_modifyFirst keeps, MailStore.without_modifyFirst keeps]
          simp [MailStore.without, List.filter_filter]
        · rw [MailStore.without_modifyFirst_of_ne same keeps,
            MailStore.without_modifyFirst_of_ne same keeps]
          simp [MailStore.without, List.filter_filter]
    | refresh elementId mail identified =>
      have keeps := refreshed_elementId identified
      cases other with
      | forget otherId =>
        simp only [onMails]
        by_cases same : otherId = elementId
        · subst same
          rw [MailStore.without_modifyFirst keeps]
        · rw [MailStore.without_modifyFirst_of_ne same keeps,
            MailStore.modifyFirst_modifyFirst keeps]
          rfl
      | refresh otherId otherMail otherIdentified =>
        have otherKeeps := refreshed_elementId otherIdentified
        simp only [onMails]
        by_cases same : otherId = elementId
        · subst same
          rw [MailStore.modifyFirst_modifyFirst otherKeeps, MailStore.modifyFirst_modifyFirst keeps,
            MailStore.modifyFirst_modifyFirst otherKeeps]
          rfl
        · rw [MailStore.modifyFirst_comm same otherKeeps keeps,
            MailStore.modifyFirst_modifyFirst keeps]
          rfl

/-- Of the changes of one mail, its row shows the last. -/
theorem onRow_absorbing (id : String) : Absorbing (onRow codec id) where
  repeated row change := by
    cases change with
    | forget elementId => by_cases same : id = elementId <;> simp [onRow, same]
    | refresh elementId mail _ =>
      by_cases same : id = elementId
      · cases row <;> simp [onRow, same, refreshRow]
      · simp [onRow, same]
  absorbed row change other := by
    cases change with
    | forget elementId => by_cases same : id = elementId <;> simp [onRow, same]
    | refresh elementId mail _ =>
      by_cases same : id = elementId
      · subst same
        cases other with
        | forget otherId =>
          by_cases isOther : id = otherId <;> cases row <;> simp [onRow, isOther, refreshRow]
        | refresh otherId _ _ =>
          by_cases isOther : id = otherId <;> cases row <;> simp [onRow, isOther, refreshRow]
      · simp [onRow, same]

theorem onRow_forget (id : String) (row : Option MailMetadata) :
    onRow codec id row (.forget id) = none := if_pos rfl

/-- A mail without a row gets none from a change. -/
theorem onRow_none (id : String) (change : MailChange) : onRow codec id none change = none := by
  cases change <;> simp [onRow]

theorem foldl_onRow_none (id : String) (changes : List MailChange) :
    changes.foldl (onRow codec id) none = none := by
  induction changes with
  | nil => rfl
  | cons change rest ih => rw [List.foldl_cons, onRow_none, ih]

end MailChange

/-- The version of a mail that a folder shows. -/
def version (mails : List StoredMail) (id : String) : Option Mail :=
  (mails.find? fun stored => stored.elementId = some id).map StoredMail.mail

theorem version_without {id other : String} (different : id ≠ other) (mails : List StoredMail) :
    version (MailStore.without other mails) id = version mails id := by
  rw [version, MailStore.without, List.find?_filter, version]
  congr 2
  funext stored
  by_cases same : stored.elementId = some id <;> simp [same, different]

theorem version_modifyFirst {id : String} {change : StoredMail → StoredMail}
    (keeps : ∀ stored, stored.elementId = some id → (change stored).elementId = some id) (mails : List StoredMail) :
    version (MailStore.modifyFirst id change mails) id =
      (mails.find? fun stored => stored.elementId = some id).map fun stored => (change stored).mail := by
  induction mails with
  | nil => rfl
  | cons head rest ih =>
    by_cases same : head.elementId = some id
    · simp [version, MailStore.modifyFirst, same, keeps head same]
    · simpa [version, MailStore.modifyFirst, same] using ih

theorem version_upsertList {id : String} {stored : StoredMail} (identified : stored.elementId = some id)
    (mails : List StoredMail) : version (MailStore.upsertList stored id mails) id = some stored.mail := by
  unfold MailStore.upsertList
  split
  next present =>
    obtain ⟨copy, found⟩ := Option.isSome_iff_exists.mp (List.find?_isSome.mpr (List.any_eq_true.mp present))
    rw [version_modifyFirst fun _ _ => identified, found]
    rfl
  next absent =>
    have missing : mails.find? (fun other => decide (other.elementId = some id)) = none := by
      simpa [List.find?_eq_none] using absent
    simp [version, List.find?_append, missing, identified]

/-- Changes that do not forget a mail leave it in its version, or in the version that one of
them brings. -/
theorem refreshed_or_not {id : String} {changes : List MailChange} (kept : .forget id ∉ changes) (codec : MailCodec) :
    ((∀ mails, version (changes.foldl MailChange.onMails mails) id = version mails id) ∧
        ∀ row, changes.foldl (MailChange.onRow codec id) row = row) ∨
      ∃ mail identified, .refresh id mail identified ∈ changes ∧
        (∀ mails, version (changes.foldl MailChange.onMails mails) id = (version mails id).map fun _ => mail) ∧
        ∀ row, changes.foldl (MailChange.onRow codec id) row = row.map (MailChange.refreshRow codec mail) := by
  induction changes using List.reverseRecOn with
  | nil => exact .inl ⟨fun _ => rfl, fun _ => rfl⟩
  | append_singleton first change ih =>
    simp only [List.mem_append, List.mem_singleton, not_or] at kept
    simp only [List.foldl_append, List.foldl_cons, List.foldl_nil, List.mem_append, List.mem_singleton]
    have before := ih kept.1
    by_cases here : ∃ mail identified, change = .refresh id mail identified
    · obtain ⟨mail, identified, rfl⟩ := here
      refine .inr ⟨mail, identified, .inr rfl, fun mails => ?_, fun row => ?_⟩
      · have shown := version_modifyFirst (MailChange.refreshed_elementId identified) (first.foldl MailChange.onMails mails)
        have sameShown : ((first.foldl MailChange.onMails mails).find? fun stored => stored.elementId = some id).map
            (fun _ => mail) = (version (first.foldl MailChange.onMails mails) id).map fun _ => mail := by
          rw [version, Option.map_map]
          rfl
        rw [MailChange.onMails, shown, sameShown]
        rcases before with ⟨same, -⟩ | ⟨_, _, _, same, -⟩ <;> rw [same]
        rw [Option.map_map]
        rfl
      · rw [MailChange.onRow, if_pos rfl]
        rcases before with ⟨-, same⟩ | ⟨_, _, _, -, same⟩ <;> rw [same]
        rw [Option.map_map]
        rfl
    · have other : (∀ mails, version (MailChange.onMails mails change) id = version mails id) ∧
          ∀ row, MailChange.onRow codec id row change = row := by
        cases change with
        | forget otherId =>
          have different : id ≠ otherId := by
            rintro rfl
            exact kept.2 rfl
          exact ⟨fun mails => version_without different mails, fun row => if_neg different⟩
        | refresh otherId mail identified =>
          have different : id ≠ otherId := by
            rintro rfl
            exact here ⟨mail, identified, rfl⟩
          refine ⟨fun mails => ?_, fun row => if_neg different⟩
          rw [← version_without different, MailChange.onMails,
            MailStore.without_modifyFirst (MailChange.refreshed_elementId identified), version_without different]
      simp only [other.1, other.2]
      refine before.imp_right ?_
      rintro ⟨mail, identified, mem, same⟩
      exact ⟨mail, identified, .inl mem, same⟩

/-- The bridge before its first call to the server. -/
def atRest : World := ⟨MailStore.new, LocalStore.blank, .empty, 0⟩

/-- The change a `Mail` event makes, none when it is of no known operation. -/
def mailChange (env : Env) (ev : EntityUpdateEvent) : Option MailChange :=
  match ev.operation with
  | .delete => some (.forget ev.instanceId)
  | .update =>
    match (resolveMail env ev atRest).1 with
    | none => some (.forget ev.instanceId)
    | some mail =>
      if identified : mail.elementId = some ev.instanceId then
        some (.refresh ev.instanceId mail identified)
      else none
  | _ => none

variable {env : Env}

theorem Steady.resolveMail (steady : Steady env.backend) (ev : EntityUpdateEvent) (world : World) :
    (Events.resolveMail env ev world).1 = (Events.resolveMail env ev atRest).1 := by
  have load : ∀ world : World, (loadUpdatedMail env ev world).1 = (loadUpdatedMail env ev atRest).1 := by
    intro world
    simp only [loadUpdatedMail, World.ask_fst, steady.loaded world.tick]
    rw [show atRest.tick = 0 from rfl]
    split <;> rfl
  unfold Events.resolveMail
  split
  · exact load world
  next json _ =>
    simp only [World.ask_fst, steady.mail world.tick]
    rw [show atRest.tick = 0 from rfl]
    split
    · rfl
    · rw [load, ← load (atRest.ask fun tick => env.backend.decryptInlineMail tick json).2]

/-- A `Mail` event applies its change to every folder and to the row. -/
theorem mailEvent_change (diskOk : env.DiskOk) (steady : Steady env.backend)
    (faithful : Faithful env.backend) {ev : EntityUpdateEvent}
    (faithfulEvent : FaithfulEvent env.backend ev) (world : World) :
    (∀ folderId, (applyMailEvent env world ev).store.getFolder folderId =
        (mailChange env ev).elim (world.store.getFolder folderId)
          (MailChange.onMails (world.store.getFolder folderId))) ∧
      ∀ id, (applyMailEvent env world ev).localStore.mails.find? id =
        (mailChange env ev).elim (world.localStore.mails.find? id)
          (MailChange.onRow env.codec id (world.localStore.mails.find? id)) := by
  obtain ⟨sameStore, sameDisk⟩ := resolveMail_stores env ev world
  have forgotten : ∀ start : World, start.store = world.store → start.localStore = world.localStore →
      (∀ folderId, (forgetMail env ev.instanceId start).store.getFolder folderId =
          MailChange.onMails (world.store.getFolder folderId) (.forget ev.instanceId)) ∧
        ∀ id, (forgetMail env ev.instanceId start).localStore.mails.find? id =
          MailChange.onRow env.codec id (world.localStore.mails.find? id) (.forget ev.instanceId) := by
    intro start store localStore
    refine ⟨fun folderId => ?_, fun id => ?_⟩
    · rw [forgetMail_store, MailStore.getFolder_removeMailEverywhere, store]
      rfl
    · rw [forgetMail_localStore diskOk, localStore]
      exact LocalStore.find?_deleteMailRow ev.instanceId world.localStore id
  unfold applyMailEvent mailChange
  cases ev.operation with
  | delete => exact forgotten world rfl rfl
  | update =>
    dsimp only
    rw [← steady.resolveMail ev world]
    cases resolved : (resolveMail env ev world).1 with
    | none => exact forgotten _ sameStore sameDisk
    | some mail =>
      have identified := resolveMail_elementId faithful faithfulEvent resolved
      simp only [identified, dif_pos]
      refine ⟨fun folderId => ?_, fun id => ?_⟩
      · rw [refreshMail, World.write_store, World.mapStore_store, sameStore,
          MailStore.getFolder_refreshMailInPlace identified]
        rfl
      · rw [refreshMail, World.write_localStore diskOk, World.mapStore_localStore, sameDisk,
          LocalStore.find?_refreshMailFields]
        cases found : world.localStore.mails.find? id with
        | none => by_cases same : id = ev.instanceId <;> simp [MailChange.onRow, same]
        | some row =>
          have rowKey : row.elementId = id := Table.key_of_find? found
          by_cases same : id = ev.instanceId <;>
            simp [MailChange.onRow, MailChange.refreshRow, same, rowKey]
  | create => exact ⟨fun _ => rfl, fun _ => rfl⟩
  | other => exact ⟨fun _ => rfl, fun _ => rfl⟩

/-- A list of `Mail` events applies its changes in order. -/
theorem mailEvents_changes (diskOk : env.DiskOk) (steady : Steady env.backend)
    (faithful : Faithful env.backend) {events : List EntityUpdateEvent}
    (faithfulEvents : ∀ ev ∈ events, FaithfulEvent env.backend ev) (world : World) :
    (∀ folderId, (events.foldl (applyMailEvent env) world).store.getFolder folderId =
        (events.filterMap (mailChange env)).foldl MailChange.onMails (world.store.getFolder folderId)) ∧
      ∀ id, (events.foldl (applyMailEvent env) world).localStore.mails.find? id =
        (events.filterMap (mailChange env)).foldl (MailChange.onRow env.codec id)
          (world.localStore.mails.find? id) := by
  induction events generalizing world with
  | nil => exact ⟨fun _ => rfl, fun _ => rfl⟩
  | cons ev rest ih =>
    obtain ⟨folders, rows⟩ := mailEvent_change diskOk steady faithful
      (faithfulEvents ev List.mem_cons_self) world
    obtain ⟨restFolders, restRows⟩ := ih (fun other mem => faithfulEvents other (List.mem_cons_of_mem _ mem))
      (applyMailEvent env world ev)
    refine ⟨fun folderId => ?_, fun id => ?_⟩
    · rw [List.foldl_cons, restFolders, folders]
      cases change : mailChange env ev <;> simp [change]
    · rw [List.foldl_cons, restRows, rows]
      cases change : mailChange env ev <;> simp [change]

end TutaBridge.Events
