import TutaBridge.Events.Settled

/-!
# Mails that pass through a batch

The creates of a batch come first, and what they place its other events and its
syncs may take away again. Of such a mail no trace is left but a spent UID, and a
row where it stays in another folder.
-/

namespace TutaBridge.Events

open TutaBridge.Std Tuta Store Bridge Sync

variable {env : Env} {folders : List FolderInfo}

/-! ## What a create finds -/

/-- A create finds the mail without the server: in a folder, or inlined. -/
def AtHand (run : BatchRun) (id : String) : Prop :=
  (∃ folderId, run.world.store.Holds folderId id) ∨ (run.pending.get? id).isSome

/-- The server has the mail of the entry. -/
def Loads (env : Env) (ev : EntityUpdateEvent) : Prop :=
  ∃ id mail, (resolveMailSetEntry env ev atRest).1 = some id ∧
    env.backend.loadMail 0 id.listId id.elementId = .ok (some mail)

/-- A create whose mail is not at hand queues a sync of its folder, unless the
server answers for the mail. -/
def fallsBack (env : Env) (folders : List FolderInfo) (ev : EntityUpdateEvent) : Bool :=
  match entryPair folders ev with
  | none => true
  | some _ =>
    match (resolveMailSetEntry env ev atRest).1 with
    | none => true
    | some id =>
      match env.backend.loadMail 0 id.listId id.elementId with
      | .ok _ => false
      | .error _ => true

theorem steady_resolveMailSetEntry (steady : Steady env.backend) (ev : EntityUpdateEvent) (world : World) :
    (resolveMailSetEntry env ev world).1 = (resolveMailSetEntry env ev atRest).1 := by
  unfold resolveMailSetEntry
  split
  · rfl
  · simp only [World.ask_fst, steady.entry world.tick]
    rw [show atRest.tick = 0 from rfl]
    split <;> rfl

theorem isSome_locate_iff (env : Env) (world : World) (id : String) :
    (locate env world id).isSome ↔ ∃ folderId, world.store.Holds folderId id := by
  rw [← MailStore.isMailAnywhere_iff]
  exact MailStore.isSome_findMailAnywhere_iff (env.hashOrder_perm _ _)

theorem obtains_iff (steady : Steady env.backend) {run : BatchRun} {ev : EntityUpdateEvent} {id : String} :
    Obtains env run ev id ↔ AtHand run id ∨ Loads env ev := by
  rw [Obtains, AtHand, isSome_locate_iff, or_assoc, Loads, steady_resolveMailSetEntry steady]
  simp only [steady.loaded (resolveMailSetEntry env ev run.world).2.tick]

theorem entryPair_of_known {at_ : Nat} {mailEid : String} {target : FolderInfo} {ev : EntityUpdateEvent}
    (decoded : MailSetEntryId.deconstruct ev.instanceId = .ok (at_, mailEid))
    (known : folderByEntries folders ev.instanceListId = some target) :
    entryPair folders ev = some (target.id, mailEid) := by
  simp [entryPair, decoded, known]

/-- The pool of inlined mails loses a mail to the create that places it. -/
theorem pending_create (env : Env) (folders : List FolderInfo) (run : BatchRun) (ev : EntityUpdateEvent)
    (id : String) :
    (applyMailSetEntryCreate env folders run ev).pending.get? id = run.pending.get? id ∨
      (applyMailSetEntryCreate env folders run ev).pending.get? id = none ∧
        ∃ folderId, entryPair folders ev = some (folderId, id) := by
  have outcome := createOutcome env folders run ev
  generalize applyMailSetEntryCreate env folders run ev = after at outcome ⊢
  cases outcome with
  | @inlined _ mailEid target _ decoded known =>
    by_cases same : id = mailEid
    · subst same
      exact .inr ⟨by rw [Dict.get?_erase, if_pos rfl], target.id, entryPair_of_known decoded known⟩
    · exact .inl (by rw [Dict.get?_erase, if_neg same])
  | unplaced | cached | unresolved | loaded | gone | failed => exact .inl rfl

/-- After a create the mail it loaded is at hand as well. -/
theorem atHand_create (reliable : Reliable env) {ev : EntityUpdateEvent}
    (faithfulEvent : FaithfulEvent env.backend ev) {run : BatchRun}
    (pendingFaithful : PendingFaithful run.pending) (id : String) :
    AtHand (applyMailSetEntryCreate env folders run ev) id ↔
      AtHand run id ∨ Loads env ev ∧ ∃ folderId, entryPair folders ev = some (folderId, id) := by
  have held : (∃ folderId, (applyMailSetEntryCreate env folders run ev).world.store.Holds folderId id) ↔
      (∃ folderId, run.world.store.Holds folderId id) ∨
        ∃ folderId, entryPair folders ev = some (folderId, id) ∧ (AtHand run id ∨ Loads env ev) := by
    rw [← exists_or]
    refine exists_congr fun folderId => ?_
    have placed := @members_create env folders reliable.faithful ev faithfulEvent run pendingFaithful (folderId, id)
    rw [obtains_iff reliable.steady] at placed
    exact placed
  constructor
  · rintro (isHeld | isInlined)
    · rcases held.mp isHeld with before | ⟨folderId, found, atHand | loads⟩
      · exact .inl (.inl before)
      · exact .inl atHand
      · exact .inr ⟨loads, folderId, found⟩
    · rcases pending_create env folders run ev id with same | ⟨gone, -⟩
      · exact .inl (.inr (same ▸ isInlined))
      · simp [gone] at isInlined
  · rintro ((before | isInlined) | ⟨loads, folderId, found⟩)
    · exact .inl (held.mpr (.inl before))
    · rcases pending_create env folders run ev id with same | ⟨-, folderId, found⟩
      · exact .inr (same ▸ isInlined)
      · exact .inl (held.mpr (.inr ⟨folderId, found, .inl (.inr isInlined)⟩))
    · exact .inl (held.mpr (.inr ⟨folderId, found, .inr loads⟩))

theorem not_atHand_of_missed {run : BatchRun} {ev : EntityUpdateEvent} {at_ : Nat} {mailEid : String}
    {target : FolderInfo}
    (decoded : MailSetEntryId.deconstruct ev.instanceId = .ok (at_, mailEid))
    (known : folderByEntries folders ev.instanceListId = some target) (missing : locate env run.world mailEid = none)
    (notInlined : run.pending.get? mailEid = none) :
    ∀ pair, entryPair folders ev = some pair → ¬ AtHand run pair.2 := by
  intro pair found
  cases (entryPair_of_known decoded known).symm.trans found
  rw [AtHand, ← isSome_locate_iff env, missing, notInlined]
  simp

/-- What one create queues. -/
theorem mem_fallbackFolders_create (steady : Steady env.backend) (run : BatchRun) (ev : EntityUpdateEvent)
    (entriesListId : String) :
    entriesListId ∈ (applyMailSetEntryCreate env folders run ev).fallbackFolders ↔
      entriesListId ∈ run.fallbackFolders ∨ ev.instanceListId = entriesListId ∧ fallsBack env folders ev ∧
        ∀ pair, entryPair folders ev = some pair → ¬ AtHand run pair.2 := by
  have queued : ∀ world : World, fallsBack env folders ev = true →
      (∀ pair, entryPair folders ev = some pair → ¬ AtHand run pair.2) →
      (entriesListId ∈ ({ run with world := world }.fallBack ev).fallbackFolders ↔
        entriesListId ∈ run.fallbackFolders ∨ ev.instanceListId = entriesListId ∧ fallsBack env folders ev ∧
          ∀ pair, entryPair folders ev = some pair → ¬ AtHand run pair.2) := by
    intro world falls missing
    simp only [BatchRun.fallBack, List.mem_insert_iff, falls, true_and, @eq_comm _ entriesListId]
    rw [or_comm]
    exact or_congr_right ⟨fun same => ⟨same, missing⟩, And.left⟩
  have outcome := createOutcome env folders run ev
  generalize applyMailSetEntryCreate env folders run ev = after at outcome ⊢
  cases outcome with
  | unplaced unknown =>
    have noPair : entryPair folders ev = none := by
      rw [Option.eq_none_iff_forall_ne_some]
      intro pair found
      obtain ⟨at_, target, decoded, known, _⟩ := entryPair_eq_some_imp found
      exact unknown at_ pair.2 target decoded known
    exact queued run.world (by simp [fallsBack, noPair]) (by simp [noPair])
  | cached decoded known located =>
    refine (or_iff_left ?_).symm
    rintro ⟨_, _, missing⟩
    exact missing _ (entryPair_of_known decoded known)
      (.inl ((isSome_locate_iff env run.world _).mp (Option.isSome_of_eq_some located)))
  | inlined decoded known _ held =>
    refine (or_iff_left ?_).symm
    rintro ⟨_, _, missing⟩
    exact missing _ (entryPair_of_known decoded known) (.inr (Option.isSome_of_eq_some held))
  | unresolved decoded known missing notInlined noEntry =>
    rw [steady_resolveMailSetEntry steady] at noEntry
    exact queued _ (by simp [fallsBack, entryPair_of_known decoded known, noEntry])
      (not_atHand_of_missed decoded known missing notInlined)
  | failed decoded known missing notInlined entry answered =>
    rw [steady_resolveMailSetEntry steady] at entry
    rw [steady.loaded] at answered
    exact queued _ (by simp [fallsBack, entryPair_of_known decoded known, entry, answered])
      (not_atHand_of_missed decoded known missing notInlined)
  | loaded decoded known _ _ entry answered | gone decoded known _ _ entry answered =>
    rw [steady_resolveMailSetEntry steady] at entry
    rw [steady.loaded] at answered
    simp [fallsBack, entryPair_of_known decoded known, entry, answered]

/-! ## What a create touches -/

/-- What a create writes over an existing row of its mail. -/
def createdColumns (env : Env) (folderId : String) (mail : Mail) (row : MailMetadata) : MailMetadata :=
  LocalStore.conflictColumns (mailToMetadata env.codec mail folderId 0) row

/-- The step leaves everything but one mail of one folder, which it places, and the
row of that mail, which it writes. -/
structure Touches (env : Env) (pair : String × String) (mail : Mail) (before after : World) : Prop where
  elsewhere : ∀ folderId, folderId ≠ pair.1 → after.store.getFolder folderId = before.store.getFolder folderId
  others : MailStore.without pair.2 (after.store.getFolder pair.1) =
    MailStore.without pair.2 (before.store.getFolder pair.1)
  placed : version (after.store.getFolder pair.1) pair.2 = some mail
  rows : ∀ id, id ≠ pair.2 → after.localStore.mails.find? id = before.localStore.mails.find? id
  row : ∃ row, after.localStore.mails.find? pair.2 = some row ∧ createdColumns env pair.1 mail row = row ∧
    ∀ old, before.localStore.mails.find? pair.2 = some old → row = createdColumns env pair.1 mail old

theorem touches_assign (diskOk : env.DiskOk) (target : FolderInfo) (mailEid : String) (stored : StoredMail)
    {id : String} (identified : stored.elementId = some id) (world : World) :
    Touches env (target.id, id) stored.mail world (assignUidAndUpsert env target mailEid stored world) := by
  have mails := fun folderId => @MailStore.getFolder_upsertMailInFolder { stored with uid := nextStamp world target.id }
    id identified target.id folderId world.store
  have key : (mailToMetadata env.codec stored.mail target.id (nextStamp world target.id)).elementId = id := by
    rw [mailToMetadata, show stored.mail.elementId = some id from identified]
    rfl
  have rows : ∀ other, (assignUidAndUpsert env target mailEid stored world).localStore.mails.find? other =
      if other = id then some ((world.localStore.mails.find? other).elim
        (mailToMetadata env.codec stored.mail target.id (nextStamp world target.id))
        (createdColumns env target.id stored.mail)) else world.localStore.mails.find? other := by
    intro other
    rw [assignUidAndUpsert_localStore diskOk, LocalStore.find?_upsertMailMetadata, key]
    rfl
  refine ⟨fun folderId different => ?_, ?_, ?_, fun other different => (rows other).trans (if_neg different),
    _, (rows id).trans (if_pos rfl), ?_, fun old found => by rw [found]; rfl⟩
  · rw [assignUidAndUpsert_store diskOk, mails, if_neg different]
  · rw [assignUidAndUpsert_store diskOk, mails, if_pos rfl]
    unfold MailStore.upsertList
    split
    · exact MailStore.without_modifyFirst (by exact fun _ _ => identified) _
    · simp [MailStore.without, StoredMail.elementId, show stored.mail.elementId = some id from identified]
  · rw [assignUidAndUpsert_store diskOk, mails, if_pos rfl]
    exact version_upsertList (by exact identified) _
  · cases world.localStore.mails.find? id <;> rfl

theorem touches_inlined (diskOk : env.DiskOk) (target : FolderInfo) {mailEid : String} {pending : PendingMail}
    (identified : pending.mail.elementId = some mailEid) (world : World) :
    Touches env (target.id, mailEid) pending.mail world (applyInlineCreate env target mailEid pending world) := by
  have placed : ∀ stored : StoredMail, stored.mail = pending.mail → ∀ start,
      Touches env (target.id, mailEid) pending.mail start (assignUidAndUpsert env target mailEid stored start) := by
    intro stored same start
    rw [← same]
    exact touches_assign diskOk target mailEid stored ((congrArg Mail.elementId same).trans identified) start
  unfold applyInlineCreate
  dsimp only
  split
  · exact placed _ rfl _
  next eml _ =>
    obtain ⟨mails, localStore⟩ := persistInlineBody_facts diskOk mailEid pending.details eml world
    have rows : ∀ id, (persistInlineBody env mailEid pending.details eml world).localStore.mails.find? id =
        (world.localStore.mails.find? id).map fun row =>
          if row.elementId = mailEid then { row with hasDetails := true } else row := by
      intro id
      rw [localStore, LocalStore.find?_markHasDetails]
      rfl
    have persisted : ∀ after, Touches env (target.id, mailEid) pending.mail
        (persistInlineBody env mailEid pending.details eml world) after →
          Touches env (target.id, mailEid) pending.mail world after := by
      intro after ⟨elsewhere, others, isPlaced, otherRows, row, found, columns, overwrites⟩
      simp only [mails, rows] at elsewhere others otherRows overwrites
      refine ⟨elsewhere, others, isPlaced, fun id different => (otherRows id different).trans ?_, row, found, columns,
        fun old oldFound => ?_⟩
      · cases rowFound : world.localStore.mails.find? id with
        | none => rfl
        | some row =>
          have key : row.elementId = id := Table.key_of_find? rowFound
          exact congrArg some (if_neg (key ▸ different))
      · rw [overwrites _ (by rw [oldFound]; rfl)]
        by_cases same : old.elementId = mailEid <;> simp [createdColumns, LocalStore.conflictColumns, same]
    exact persisted _ (placed _ rfl _)

theorem locate_version {world : World} {id source : String} {stored : StoredMail}
    (located : locate env world id = some (source, stored)) :
    version (world.store.getFolder source) id = some stored.mail := by
  obtain ⟨candidate, -, found⟩ := List.exists_of_findSome?_eq_some located
  obtain ⟨copy, copyFound, equal⟩ := Option.map_eq_some_iff.mp found
  cases equal
  exact congrArg (Option.map StoredMail.mail) copyFound

/-- A create touches the mail it gets hold of, in a version that some folder shows when
one has the mail. -/
theorem touches_create (reliable : Reliable env) {run : BatchRun} {ev : EntityUpdateEvent}
    (faithfulEvent : FaithfulEvent env.backend ev)
    (pendingFaithful : PendingFaithful run.pending) :
    let after := (applyMailSetEntryCreate env folders run ev).world
    (after.store = run.world.store ∧ after.localStore = run.world.localStore ∧
        ∀ pair, entryPair folders ev = some pair → ¬ Obtains env run ev pair.2) ∨
      ∃ pair mail, entryPair folders ev = some pair ∧ Obtains env run ev pair.2 ∧
        Touches env pair mail run.world after ∧ ((∃ folderId, run.world.store.Holds folderId pair.2) →
          ∃ source, version (run.world.store.getFolder source) pair.2 = some mail) := by
  have nowhere : ∀ {id}, locate env run.world id = none → ¬ ∃ folderId, run.world.store.Holds folderId id := by
    intro id missing held
    rw [← isSome_locate_iff env, missing] at held
    cases held
  have outcome := createOutcome env folders run ev
  dsimp only
  generalize applyMailSetEntryCreate env folders run ev = after at outcome ⊢
  cases outcome with
  | unplaced unknown =>
    refine .inl ⟨rfl, rfl, fun pair found => ?_⟩
    obtain ⟨at_, target, decoded, known, _⟩ := entryPair_eq_some_imp found
    exact absurd known (unknown at_ pair.2 target decoded)
  | cached decoded known located =>
    exact .inr ⟨_, _, entryPair_of_known decoded known, .inl (Option.isSome_of_eq_some located),
      touches_assign reliable.diskOk _ _ _ (MailStore.findMailAnywhere_eq_some_imp located).2 _,
      fun _ => ⟨_, locate_version located⟩⟩
  | inlined decoded known missing held =>
    exact .inr ⟨_, _, entryPair_of_known decoded known, .inr (.inl (Option.isSome_of_eq_some held)),
      touches_inlined reliable.diskOk _ (pendingFaithful _ _ held) _, fun present => absurd present (nowhere missing)⟩
  | @loaded _ _ _ id mail decoded known missing _ entry answered =>
    refine .inr ⟨_, mail, entryPair_of_known decoded known, .inr (.inr ⟨id, mail, entry, answered⟩), ?_,
      fun present => absurd present (nowhere missing)⟩
    rw [← resolveMailSetEntry_elementId faithfulEvent entry decoded]
    obtain ⟨store, localStore⟩ := requested_stores env ev run.world
    obtain ⟨elsewhere, others, placed, rows, row⟩ :=
      @touches_assign env reliable.diskOk _ id.elementId (newlyStored mail) _
      (reliable.faithful.loaded _ _ _ _ answered) (requested env ev run.world)
    rw [localStore] at row
    simp only [store, localStore] at elsewhere others rows
    exact ⟨elsewhere, others, placed, rows, row⟩
  | unresolved decoded known missing notInlined noEntry =>
    obtain ⟨store, localStore⟩ := resolveMailSetEntry_stores env ev run.world
    refine .inl ⟨store, localStore, fun pair found => ?_⟩
    cases (entryPair_of_known decoded known).symm.trans found
    simp [Obtains, missing, notInlined, noEntry]
  | gone decoded known missing notInlined entry answered | failed decoded known missing notInlined entry answered =>
    obtain ⟨store, localStore⟩ := requested_stores env ev run.world
    refine .inl ⟨store, localStore, fun pair found => ?_⟩
    cases (entryPair_of_known decoded known).symm.trans found
    simp [Obtains, missing, notInlined, entry, answered]

/-! ## The creates of a batch -/

/-- One of the creates loads the mail. -/
def Loaded (env : Env) (folders : List FolderInfo) (creates : List EntityUpdateEvent) (id : String) : Prop :=
  ∃ ev ∈ creates, Loads env ev ∧ ∃ folderId, entryPair folders ev = some (folderId, id)

/-- One of the creates places the mail in the folder: it was at hand at first, or is
loaded by then. -/
def Places (env : Env) (folders : List FolderInfo) (atHand : String → Prop) (creates : List EntityUpdateEvent)
    (folderId id : String) : Prop :=
  ∃ earlier ev, earlier ++ [ev] <+: creates ∧ entryPair folders ev = some (folderId, id) ∧
    (atHand id ∨ Loaded env folders (earlier ++ [ev]) id)

/-- One of the creates queues a sync: its mail was not at hand, nor loaded by then. -/
def Queues (env : Env) (folders : List FolderInfo) (atHand : String → Prop) (creates : List EntityUpdateEvent)
    (entriesListId : String) : Prop :=
  ∃ earlier ev, earlier ++ [ev] <+: creates ∧ ev.instanceListId = entriesListId ∧ fallsBack env folders ev ∧
    ∀ pair, entryPair folders ev = some pair → ¬ (atHand pair.2 ∨ Loaded env folders earlier pair.2)

/-- The folder that the last of the creates that name the mail names it in. -/
def lastFolder (folders : List FolderInfo) (creates : List EntityUpdateEvent) (id : String) : Option String :=
  creates.foldl (fun last ev => match entryPair folders ev with
    | some (folderId, named) => if named = id then some folderId else last
    | none => last) none

theorem Loaded.of_prefix {earlier later : List EntityUpdateEvent} (inFront : earlier <+: later) {id : String} :
    Loaded env folders earlier id → Loaded env folders later id :=
  fun ⟨ev, mem, loads⟩ => ⟨ev, inFront.subset mem, loads⟩

theorem Places.of_prefix {earlier later : List EntityUpdateEvent} (inFront : earlier <+: later)
    {atHand : String → Prop} {folderId id : String} :
    Places env folders atHand earlier folderId id → Places env folders atHand later folderId id :=
  fun ⟨first, ev, isPrefix, places⟩ => ⟨first, ev, isPrefix.trans inFront, places⟩

/-- The creates `creates` begin in the state `start`, and get the right mails. -/
structure Fair (env : Env) (start : BatchRun) (creates : List EntityUpdateEvent) : Prop where
  reliable : Reliable env
  events : ∀ ev ∈ creates, FaithfulEvent env.backend ev
  pending : PendingFaithful start.pending

/-- Every folder that has the mail shows it in this version. -/
def OneVersion (world : World) (id : String) (mail : Mail) : Prop :=
  ∀ folderId shown, version (world.store.getFolder folderId) id = some shown → shown = mail

namespace Fair

variable {creates earlier : List EntityUpdateEvent} {ev : EntityUpdateEvent} {start : BatchRun} {folderId id : String}

theorem of_prefix (fair : Fair env start creates) (inFront : earlier <+: creates) : Fair env start earlier :=
  ⟨fair.reliable, fun ev mem => fair.events ev (inFront.subset mem), fair.pending⟩

theorem pending_creates (fair : Fair env start creates) :
    PendingFaithful (creates.foldl (applyMailSetEntryCreate env folders) start).pending :=
  List.foldlRecOn (motive := fun run : BatchRun => PendingFaithful run.pending) _ _ fair.pending
    fun _ pending ev _ => pendingFaithful_create ev pending

theorem atHand_iff (fair : Fair env start creates) (id : String) :
    AtHand (creates.foldl (applyMailSetEntryCreate env folders) start) id ↔
      AtHand start id ∨ Loaded env folders creates id := by
  induction creates using List.reverseRecOn with
  | nil => simp [Loaded]
  | append_singleton earlier ev ih =>
    have before := fair.of_prefix (List.prefix_append earlier [ev])
    rw [List.foldl_append, List.foldl_cons, List.foldl_nil, atHand_create fair.reliable
      (fair.events ev (List.mem_append_right _ (List.mem_singleton_self ev))) before.pending_creates,
      ih before, or_assoc]
    simp [Loaded, or_and_right, exists_or]

/-- What the last of the creates gets hold of. -/
theorem obtains_iff (fair : Fair env start (earlier ++ [ev])) (found : entryPair folders ev = some (folderId, id)) :
    Obtains env (earlier.foldl (applyMailSetEntryCreate env folders) start) ev id ↔
      AtHand start id ∨ Loaded env folders (earlier ++ [ev]) id := by
  rw [Events.obtains_iff fair.reliable.steady, (fair.of_prefix (List.prefix_append earlier [ev])).atHand_iff, or_assoc]
  refine or_congr_right ?_
  simp only [Loaded, List.mem_append, List.mem_singleton, or_and_right, exists_or, exists_eq_left]
  exact or_congr_right (and_iff_left ⟨folderId, found⟩).symm

theorem holds_iff (fair : Fair env start creates) (folderId id : String) :
    (creates.foldl (applyMailSetEntryCreate env folders) start).world.store.Holds folderId id ↔
      start.world.store.Holds folderId id ∨ Places env folders (AtHand start) creates folderId id := by
  refine (members_creates fair.reliable.faithful fair.events fair.pending (folderId, id)).trans (or_congr_right ?_)
  rw [Sometime.iff_prefix]
  exact exists_congr fun earlier => exists_congr fun ev => and_congr_right fun inFront => and_congr_right
    (fair.of_prefix inFront).obtains_iff

/-- What the creates queue. -/
theorem mem_fallbackFolders_iff (fair : Fair env start creates) (empty : start.fallbackFolders = [])
    (entriesListId : String) :
    entriesListId ∈ (creates.foldl (applyMailSetEntryCreate env folders) start).fallbackFolders ↔
      Queues env folders (AtHand start) creates entriesListId := by
  rw [Sometime.foldl_iff (fun run : BatchRun => entriesListId ∈ run.fallbackFolders) (fun _ => True) (fun _ => True)
    (fun _ _ _ _ => trivial) (fun run ev _ _ => mem_fallbackFolders_create fair.reliable.steady run ev entriesListId)
    (fun _ _ => trivial) trivial, empty, Sometime.iff_prefix]
  refine (or_iff_right List.not_mem_nil).trans (exists_congr fun earlier => exists_congr fun ev =>
    and_congr_right fun inFront => ?_)
  simp only [(fair.of_prefix ((List.prefix_append earlier [ev]).trans inFront)).atHand_iff]

/-- The last of the creates places its mail, or does nothing. -/
theorem touches (fair : Fair env start (earlier ++ [ev])) :
    let run := earlier.foldl (applyMailSetEntryCreate env folders) start
    let after := (applyMailSetEntryCreate env folders run ev).world
    (after.store = run.world.store ∧ after.localStore = run.world.localStore ∧
        ∀ folderId id, entryPair folders ev = some (folderId, id) →
          ¬ (AtHand start id ∨ Loaded env folders (earlier ++ [ev]) id)) ∨
      ∃ folderId id mail, entryPair folders ev = some (folderId, id) ∧
        (AtHand start id ∨ Loaded env folders (earlier ++ [ev]) id) ∧
        Touches env (folderId, id) mail run.world after ∧ ((∃ folderId, run.world.store.Holds folderId id) →
          ∃ source, version (run.world.store.getFolder source) id = some mail) := by
  rcases @touches_create env folders fair.reliable _ ev
    (fair.events ev (List.mem_append_right _ (List.mem_singleton_self ev)))
    (fair.of_prefix (List.prefix_append earlier [ev])).pending_creates
    with ⟨store, localStore, unfound⟩ | ⟨⟨folderId, id⟩, mail, found, finds, touches⟩
  · exact .inl ⟨store, localStore, fun folderId id found => mt (fair.obtains_iff found).mpr (unfound _ found)⟩
  · exact .inr ⟨folderId, id, mail, found, (fair.obtains_iff found).mp finds, touches⟩

/-- The creates leave the mails that they do not place, in their folders and in their rows. -/
theorem elsewhere (fair : Fair env start creates) :
    let after := (creates.foldl (applyMailSetEntryCreate env folders) start).world
    (∀ folderId (changes : List MailChange), (∀ id, Places env folders (AtHand start) creates folderId id →
        .forget id ∈ changes) → changes.foldl MailChange.onMails (after.store.getFolder folderId) =
          changes.foldl MailChange.onMails (start.world.store.getFolder folderId)) ∧
      (∀ folderId id, ¬ Places env folders (AtHand start) creates folderId id →
        keptUid (after.store.getFolder folderId) id = keptUid (start.world.store.getFolder folderId) id) ∧
      ∀ id, (∀ folderId, ¬ Places env folders (AtHand start) creates folderId id) →
        after.localStore.mails.find? id = start.world.localStore.mails.find? id := by
  induction creates using List.reverseRecOn with
  | nil => exact ⟨fun _ _ _ => rfl, fun _ _ _ => rfl, fun _ _ => rfl⟩
  | append_singleton earlier ev ih =>
    have inFront := List.prefix_append earlier [ev]
    obtain ⟨mails, uids, rows⟩ := ih (fair.of_prefix inFront)
    dsimp only
    rw [List.foldl_append, List.foldl_cons, List.foldl_nil]
    rcases @touches env folders earlier ev start fair
      with ⟨store, localStore, -⟩ | ⟨placeId, placed, mail, found, finds, touches, -⟩
    · rw [store, localStore]
      exact ⟨fun folderId changes passing => mails folderId changes fun id places => passing id (places.of_prefix inFront),
        fun folderId id unplaced => uids folderId id (mt (Places.of_prefix inFront) unplaced),
        fun id unplaced => rows id fun folderId => mt (Places.of_prefix inFront) (unplaced folderId)⟩
    · have places : Places env folders (AtHand start) (earlier ++ [ev]) placeId placed :=
        ⟨earlier, ev, List.prefix_rfl, found, finds⟩
      refine ⟨fun folderId changes passing => ?_, fun folderId id unplaced => ?_, fun id unplaced => ?_⟩
      · rw [← mails folderId changes fun id places => passing id (places.of_prefix inFront)]
        rcases eq_or_ne folderId placeId with rfl | different
        · refine MailChange.onMails_absorbing.foldl_congr ?_ (passing placed places)
          exact touches.others
        · rw [touches.elsewhere folderId different]
      · rw [← uids folderId id (mt (Places.of_prefix inFront) unplaced)]
        rcases eq_or_ne folderId placeId with rfl | different
        · have isOther : id ≠ placed := by
            rintro rfl
            exact unplaced places
          rw [← keptUid_without isOther, touches.others, keptUid_without isOther]
        · rw [touches.elsewhere folderId different]
      · have isOther : id ≠ placed := by
          rintro rfl
          exact unplaced placeId places
        rw [touches.rows id isOther, rows id fun folderId => mt (Places.of_prefix inFront) (unplaced folderId)]

/-- Creates copy the version of a mail that is in a folder. -/
theorem oneVersion (fair : Fair env start creates) {mail : Mail}
    (held : ∃ folderId, start.world.store.Holds folderId id)
    (one : OneVersion start.world id mail) :
    OneVersion (creates.foldl (applyMailSetEntryCreate env folders) start).world id mail := by
  induction creates using List.reverseRecOn with
  | nil => exact one
  | append_singleton earlier ev ih =>
    have before := fair.of_prefix (List.prefix_append earlier [ev])
    have oneBefore := ih before
    rw [List.foldl_append, List.foldl_cons, List.foldl_nil]
    rcases @touches env folders earlier ev start fair
      with ⟨store, -⟩ | ⟨placeId, placed, copy, -, -, touches, copies⟩
    · rw [OneVersion, store]
      exact oneBefore
    · intro folderId shown isShown
      rcases eq_or_ne folderId placeId with rfl | different
      · by_cases same : placed = id
        · subst same
          obtain ⟨source, sourceShown⟩ := copies (held.imp fun folderId isHeld =>
            (before.holds_iff folderId placed).mpr (.inl isHeld))
          exact (Option.some.inj (isShown.symm.trans touches.placed)).trans (oneBefore source copy sourceShown)
        · rw [← version_without (Ne.symm same), touches.others, version_without (Ne.symm same)] at isShown
          exact oneBefore folderId shown isShown
      · rw [touches.elsewhere folderId different] at isShown
        exact oneBefore folderId shown isShown

/-- The row of a mail that creates place is in the folder of the last of them. -/
theorem row (fair : Fair env start creates) (places : Places env folders (AtHand start) creates folderId id) :
    ∃ row, (creates.foldl (applyMailSetEntryCreate env folders) start).world.localStore.mails.find? id = some row ∧
      lastFolder folders creates id = some row.folderId ∧
      Places env folders (AtHand start) creates row.folderId id ∧
      ∀ mail, (∃ folderId, start.world.store.Holds folderId id) → OneVersion start.world id mail →
        createdColumns env row.folderId mail row = row ∧ ∀ old, start.world.localStore.mails.find? id = some old →
          row = createdColumns env row.folderId mail old := by
  induction creates using List.reverseRecOn generalizing folderId with
  | nil =>
    obtain ⟨earlier, ev, inFront, -⟩ := places
    simp at inFront
  | append_singleton earlier ev ih =>
    have inFront := List.prefix_append earlier [ev]
    have before := fair.of_prefix inFront
    have last : lastFolder folders (earlier ++ [ev]) id = match entryPair folders ev with
        | some (folderId, named) => if named = id then some folderId else lastFolder folders earlier id
        | none => lastFolder folders earlier id := by
      simp [lastFolder]
    have step := @touches env folders earlier ev start fair
    rw [List.foldl_append, List.foldl_cons, List.foldl_nil]
    by_cases here : ∃ folderId, entryPair folders ev = some (folderId, id) ∧
      (AtHand start id ∨ Loaded env folders (earlier ++ [ev]) id)
    · obtain ⟨placeId, found, finds⟩ := here
      rcases step with ⟨-, -, unfound⟩ | ⟨otherId, other, copy, otherFound, -, touches, copies⟩
      · exact absurd finds (unfound placeId id found)
      · cases found.symm.trans otherFound
        obtain ⟨row, rowFound, columns, overwrites⟩ := touches.row
        have inFolder : row.folderId = placeId := by rw [← columns]; rfl
        refine ⟨row, rowFound, ?_, inFolder ▸ ⟨earlier, ev, List.prefix_rfl, found, finds⟩, fun mail held one => ?_⟩
        · simp [last, found, inFolder]
        · obtain ⟨source, sourceShown⟩ := copies (held.imp fun folderId isHeld =>
            (before.holds_iff folderId id).mpr (.inl isHeld))
          obtain rfl := before.oneVersion held one source copy sourceShown
          subst inFolder
          refine ⟨columns, fun old oldFound => ?_⟩
          by_cases placedBefore : ∃ folderId, Places env folders (AtHand start) earlier folderId id
          · obtain ⟨previousId, placedBefore⟩ := placedBefore
            obtain ⟨previous, previousFound, -, -, written⟩ := ih before placedBefore
            rw [overwrites previous previousFound, (written copy held one).2 old oldFound]
            rfl
          · exact overwrites old ((before.elsewhere.2.2 id (not_exists.mp placedBefore)).trans oldFound)
    · have unplaced : Places env folders (AtHand start) earlier folderId id := by
        obtain ⟨first, other, isPrefix, found, finds⟩ := places
        rcases List.prefix_concat_iff.mp isPrefix with same | shorter
        · obtain ⟨rfl, rfl⟩ := List.append_singleton_inj.mp same
          exact absurd ⟨folderId, found, finds⟩ here
        · exact ⟨first, other, shorter, found, finds⟩
      obtain ⟨row, rowFound, isLast, rowPlaces, written⟩ := ih before unplaced
      have unnamed : ∀ folderId, entryPair folders ev ≠ some (folderId, id) := by
        obtain ⟨first, other, isPrefix, -, finds⟩ := unplaced
        exact fun folderId found =>
          here ⟨folderId, found, finds.imp_right (Loaded.of_prefix (isPrefix.trans inFront))⟩
      refine ⟨row, ?_, ?_, rowPlaces.of_prefix inFront, written⟩
      · rcases step with ⟨-, localStore, -⟩ | ⟨otherId, other, copy, otherFound, -, touches, -⟩
        · rw [localStore, rowFound]
        · refine (touches.rows id ?_).trans rowFound
          rintro rfl
          exact unnamed otherId otherFound
      · rw [last]
        cases found : entryPair folders ev with
        | none => exact isLast
        | some pair =>
          refine (if_neg ?_).trans isLast
          rintro rfl
          exact unnamed pair.1 found

end Fair

end TutaBridge.Events
