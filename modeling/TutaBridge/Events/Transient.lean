import TutaBridge.Events.HandlerFacts

/-!
# A failed request and a deleted mail

`resolveMail` answers `none` both when the server says that a mail is gone and
when the request failed, and `applyMailEvent` takes `none` for a delete. So an
UPDATE leaves a mail alone exactly when its load does not fail, or when there is
nothing of the mail to delete.
-/

namespace TutaBridge.Events

open TutaBridge.Std Tuta Store Bridge Sync

/-- The index rows of a mail. -/
def ftsRows (store : LocalStore) (elementId : String) : List (String × String) :=
  store.mailFts.filter fun row => row.1 = elementId

/-- The mail is in every folder that held it, and its row, body file and index
row are still there. -/
structure KeepsMail (elementId : String) (before after : World) : Prop where
  folders : ∀ folderId, before.store.Holds folderId elementId → after.store.Holds folderId elementId
  row : (before.localStore.mails.find? elementId).isSome → (after.localStore.mails.find? elementId).isSome
  eml : after.localStore.emls.get? elementId = before.localStore.emls.get? elementId
  fts : ftsRows after.localStore elementId = ftsRows before.localStore elementId

/-- What is kept depends on the stores alone. -/
theorem keepsMail_congr {elementId : String} {left right after : World}
    (store : left.store = right.store) (localStore : left.localStore = right.localStore) :
    KeepsMail elementId left after ↔ KeepsMail elementId right after := by
  constructor
  · rintro ⟨folders, row, eml, fts⟩
    rw [localStore] at row eml fts
    rw [store] at folders
    exact ⟨folders, row, eml, fts⟩
  · rintro ⟨folders, row, eml, fts⟩
    rw [← localStore] at row eml fts
    rw [← store] at folders
    exact ⟨folders, row, eml, fts⟩

/-- Something of the mail is stored, in memory or on disk. -/
def Stored (elementId : String) (world : World) : Prop :=
  (∃ folderId, world.store.Holds folderId elementId) ∨ (world.localStore.mails.find? elementId).isSome ∨
    (world.localStore.emls.get? elementId).isSome ∨
    ftsRows world.localStore elementId ≠ []

/-- The inlined payload is absent or does not decrypt to a mail. -/
def InlineUnresolved (env : Env) (ev : EntityUpdateEvent) (world : World) : Prop :=
  ∀ json, ev.inlined = some json → ∀ mail, env.backend.decryptInlineMail world.tick json ≠ .ok (some mail)

/-- What `load_mail` answers after the attempt to decrypt the payload. -/
def loadAnswer (env : Env) (ev : EntityUpdateEvent) (world : World) : Except String (Option Mail) :=
  env.backend.loadMail (if ev.inlined.isSome then world.tick + 1 else world.tick)
    ev.instanceListId ev.instanceId

/-- Without an inlined mail, the mail is what the load gives. -/
theorem resolveMail_of_unresolved {env : Env} {ev : EntityUpdateEvent} {world : World}
    (unresolved : InlineUnresolved env ev world) :
    (resolveMail env ev world).1 = (match loadAnswer env ev world with
          | .ok mail => mail
          | .error _ => none) ∧
      (resolveMail env ev world).2.store = world.store ∧
      (resolveMail env ev world).2.localStore = world.localStore := by
  have load : ∀ world : World, (loadUpdatedMail env ev world).1 =
          (match env.backend.loadMail world.tick ev.instanceListId ev.instanceId with
            | .ok mail => mail
            | .error _ => none) ∧
        (loadUpdatedMail env ev world).2.store = world.store ∧
        (loadUpdatedMail env ev world).2.localStore = world.localStore := by
    intro world
    simp only [loadUpdatedMail, World.ask_fst]
    cases env.backend.loadMail world.tick ev.instanceListId ev.instanceId <;> simp
  cases inlined : ev.inlined with
  | none => simpa [resolveMail, loadAnswer, inlined] using load world
  | some json =>
    have missed := unresolved json inlined
    have loaded : resolveMail env ev world = loadUpdatedMail env ev
        (world.ask fun tick => env.backend.decryptInlineMail tick json).2 := by
      simp only [resolveMail, inlined, World.ask_fst]
    rw [loaded]
    simpa [loadAnswer, inlined, World.ask] using load (world.ask fun tick =>
      env.backend.decryptInlineMail tick json).2

/-- Storing a new version of any mail deletes nothing, whatever the disk does. -/
theorem refreshMail_keeps (env : Env) (instanceId elementId : String) (mail : Mail)
    (world : World) : KeepsMail elementId world (refreshMail env instanceId mail world) := by
  refine ⟨fun folderId held => ?_, fun present => ?_, ?_, ?_⟩
  · simpa [refreshMail, MailStore.holds_refreshMailInPlace] using held
  all_goals
    simp only [refreshMail, World.write, World.call, World.mapStore]
    split
  all_goals first | rfl | skip
  · exact present
  · simpa using present

/-- On a working disk, forgetting a stored mail does not keep it. -/
theorem forgetMail_not_keeps {env : Env} (diskOk : env.DiskOk) {elementId : String}
    {world : World} (stored : Stored elementId world) :
    ¬ KeepsMail elementId world (forgetMail env elementId world) := by
  intro kept
  have disk := forgetMail_localStore diskOk elementId world
  rcases stored with ⟨folderId, held⟩ | row | eml | fts
  · have remains := kept.folders folderId held
    simp [MailStore.holds_removeMailEverywhere] at remains
  · have remains := kept.row row
    rw [disk] at remains
    simp [LocalStore.unindexBody, LocalStore.deleteEml] at remains
  · have remains := kept.eml
    rw [disk] at remains
    simp only [LocalStore.unindexBody, LocalStore.deleteEml, Dict.get?_erase, if_true] at remains
    rw [← remains] at eml
    simp at eml
  · apply fts
    have remains := kept.fts
    rw [disk] at remains
    rw [← remains]
    simp [ftsRows, LocalStore.unindexBody, List.filter_filter]

/-- Forgetting a mail that is nowhere changes nothing of it. -/
theorem forgetMail_keeps_of_not_stored {env : Env} {elementId : String} {world : World}
    (diskOk : env.DiskOk) (absent : ¬ Stored elementId world) :
    KeepsMail elementId world (forgetMail env elementId world) := by
  have disk := forgetMail_localStore diskOk elementId world
  simp only [Stored, not_or, not_exists, ne_eq, not_not] at absent
  obtain ⟨noFolder, noRow, noEml, noFts⟩ := absent
  refine ⟨fun folderId held => absurd held (noFolder folderId), fun present => absurd present noRow, ?_, ?_⟩
  · rw [disk]
    have missing : world.localStore.emls.get? elementId = none := by simpa using noEml
    simp [LocalStore.unindexBody, LocalStore.deleteEml, missing]
  · rw [disk, noFts]
    simp [ftsRows, LocalStore.unindexBody, LocalStore.deleteEml, LocalStore.deleteMailRow, List.filter_filter]

/-- An UPDATE whose mail is neither inlined nor gone keeps the mail when the load
succeeds or nothing of it is stored, and on a working disk only then. -/
theorem mail_update_keeps_iff_load_succeeds (env : Env) (ev : EntityUpdateEvent) (world : World)
    (isUpdate : ev.operation = .update) (unresolved : InlineUnresolved env ev world)
    (notGone : loadAnswer env ev world ≠ .ok none) : ((∃ mail, loadAnswer env ev world = .ok (some mail)) →
        KeepsMail ev.instanceId world (applyMailEvent env world ev)) ∧
      (env.DiskOk → (KeepsMail ev.instanceId world (applyMailEvent env world ev) ↔
          (∃ mail, loadAnswer env ev world = .ok (some mail)) ∨ ¬ Stored ev.instanceId world)) := by
  obtain ⟨resolved, sameStore, sameDisk⟩ := resolveMail_of_unresolved unresolved
  cases answer : loadAnswer env ev world with
  | error message =>
    rw [answer] at resolved
    have applied : applyMailEvent env world ev =
        forgetMail env ev.instanceId (resolveMail env ev world).2 := by
      simp only [applyMailEvent, isUpdate, resolved]
    refine ⟨by simp, fun diskOk => ?_⟩
    simp only [reduceCtorEq, exists_false, false_or]
    constructor
    · intro kept stored
      rw [applied, ← keepsMail_congr sameStore sameDisk] at kept
      refine forgetMail_not_keeps diskOk ?_ kept
      simpa only [Stored, sameStore, sameDisk] using stored
    · intro absent
      rw [applied, ← keepsMail_congr sameStore sameDisk]
      refine forgetMail_keeps_of_not_stored diskOk ?_
      simpa only [Stored, sameStore, sameDisk] using absent
  | ok result =>
    cases result with
    | none => exact absurd answer notGone
    | some mail =>
      rw [answer] at resolved
      have applied : applyMailEvent env world ev =
          refreshMail env ev.instanceId mail (resolveMail env ev world).2 := by
        simp only [applyMailEvent, isUpdate, resolved]
      have kept : KeepsMail ev.instanceId world (applyMailEvent env world ev) := by
        rw [applied, ← keepsMail_congr sameStore sameDisk]
        exact refreshMail_keeps env _ _ _ _
      exact ⟨fun _ => kept, fun _ => ⟨fun _ => .inl ⟨mail, rfl⟩, fun _ => kept⟩⟩

/-- One mail in the inbox, in memory and on disk. -/
def cachedInbox : World := sampleWorld [sampleFolder "inbox" "entries"] [("inbox", [sampleStored "m1" 1])]

/-- The mail was marked as read in the webmail; the event carries no payload. -/
def readUpdate : EntityUpdateEvent := sampleEvent mailTypeId "list1" "m1" .update

/-- Tuta answers the load of the mail. -/
def onlineBackend : MailBackend :=
  { offlineBackend [] with loadMail := fun _ _ elementId => .ok (some (sampleMail elementId)) }

/-- The request fails once, and a mail that is on the server is deleted. -/
theorem mail_update_failed_load_deletes : readUpdate.operation = .update ∧
      InlineUnresolved (quietEnv (offlineBackend [])) readUpdate cachedInbox ∧
      loadAnswer (quietEnv (offlineBackend [])) readUpdate cachedInbox = .error "offline" ∧
      cachedInbox.store.Holds "inbox" "m1" ∧
      ¬ KeepsMail "m1" cachedInbox
        (applyMailEvent (quietEnv (offlineBackend [])) cachedInbox readUpdate) := by
  refine ⟨rfl, (fun _ inlined => nomatch inlined), rfl, by decide, fun kept => ?_⟩
  have remains := kept.folders "inbox" (by decide)
  revert remains
  decide

/-- With the server reachable, the same event keeps the mail. -/
theorem mail_update_keeps_online : KeepsMail "m1" cachedInbox
      (applyMailEvent (quietEnv onlineBackend) cachedInbox readUpdate) :=
  (mail_update_keeps_iff_load_succeeds (quietEnv onlineBackend) readUpdate cachedInbox rfl
    (fun _ inlined => nomatch inlined) (by decide)).1 ⟨sampleMail "m1", rfl⟩

end TutaBridge.Events
