import TutaBridge.Events.HandlerFacts
import TutaBridge.Imap.Fetch
import TutaBridge.Std.Steps

/-!
# Deleting a mail under its readers

The event handler deletes a mail while the prefetch and a client's FETCH may be
downloading it. Both look whether they need the body before a request and write
file, index row and cache entry after it. `taskStep` interleaves the three tasks
at their awaits and their calls to the stores.
-/

namespace TutaBridge.Runs

open TutaBridge.Std Tuta Store Bridge Sync
open Events Imap

variable {effect : LocalStore → LocalStore}

/-- The event that deletes: the mail's own, or that of its entry in a folder. -/
inductive Deletion where
  | mail
  | entry (folderId : String)
deriving DecidableEq, Repr

/-- Where the handler is. `checking` is the question whether some folder still
holds the mail. -/
inductive DeletionPhase where
  | waiting
  | checking
  | deletingRow
  | deletingEml
  | unindexing
  | forgetting
  | done
deriving DecidableEq, Repr

/-- What follows `delete_mail`, which ends at the first disk call that fails. -/
def Deletion.afterDisk : Deletion → DeletionPhase
  | .mail => .forgetting
  | .entry _ => .done

/-- One disk call of `delete_mail`. -/
def deletionWrite (env : Env) (deletion : Deletion) (effect : LocalStore → LocalStore)
    (next : DeletionPhase) (world : World) : World × DeletionPhase :=
  let done := world.call env fun store => ((), effect store)
  match done.1 with
  | .error _ => (done.2, deletion.afterDisk)
  | .ok _ => (done.2, next)

/-- The next piece of the deletion, none at its end. -/
def deletionStep (env : Env) (elementId : String) (deletion : Deletion) (world : World) :
    DeletionPhase → Option (World × DeletionPhase)
  | .waiting =>
    match deletion with
    | .mail => some (world, .deletingRow)
    | .entry folderId =>
      some (world.mapStore fun store => (store.removeMailFromFolder folderId elementId).2, .checking)
  | .checking =>
    if world.store.isMailAnywhere elementId then some (world, .done)
    else some (world, .deletingRow)
  | .deletingRow =>
    some (deletionWrite env deletion (·.deleteMailRow elementId) .deletingEml world)
  | .deletingEml => some (deletionWrite env deletion (·.deleteEml elementId) .unindexing world)
  | .unindexing =>
    some (deletionWrite env deletion (·.unindexBody elementId) deletion.afterDisk world)
  | .forgetting => some (world.mapStore (·.removeMailEverywhere elementId), .done)
  | .done => none

/-! ## A deletion with nothing in between -/

section Alone

variable {env : Env} {elementId : String} {deletion : Deletion}

/-- The deletion gets from one point to the other by its own steps. -/
def Deletes (env : Env) (elementId : String) (deletion : Deletion) :
    World × DeletionPhase → World × DeletionPhase → Prop :=
  Relation.ReflTransGen fun task next =>
    deletionStep env elementId deletion task.1 task.2 = some next

/-- One disk call of the chain, which goes on only if the call succeeds. -/
theorem deletes_writeAll_cons {phase next : DeletionPhase}
    {rest : List (LocalStore → LocalStore)} (world : World) (here : deletionStep env elementId deletion world phase =
      some (deletionWrite env deletion effect next world))
    (later : ∀ world : World, Deletes env elementId deletion (world, next)
      (world.writeAll env rest, deletion.afterDisk)) :
    Deletes env elementId deletion (world, phase) (world.writeAll env (effect :: rest), deletion.afterDisk) := by
  refine .head here ?_
  unfold deletionWrite World.writeAll
  dsimp only
  cases (world.call env fun store => ((), effect store)).1 with
  | error fault => exact .refl
  | ok done => exact later _

theorem deletes_deleteMail (world : World) : Deletes env elementId deletion (world, .deletingRow)
      (world.deleteMail env elementId, deletion.afterDisk) :=
  deletes_writeAll_cons world rfl fun world =>
    deletes_writeAll_cons world rfl fun world =>
      deletes_writeAll_cons world rfl fun _ => .refl

/-- A deletion that no other task interrupts is the handler's. -/
theorem deletes_applyMailEvent {ev : EntityUpdateEvent} (isDelete : ev.operation = .delete) (world : World) :
    Deletes env ev.instanceId .mail (world, .waiting) (applyMailEvent env world ev, .done) := by
  simp only [applyMailEvent, isDelete, forgetMail]
  exact .head rfl ((deletes_deleteMail world).trans (.head rfl .refl))

theorem deletes_applyMailSetEntryDelete {folders : List FolderInfo} {ev : EntityUpdateEvent}
    {date : Nat} {source : FolderInfo} (decoded : MailSetEntryId.deconstruct ev.instanceId = .ok (date, elementId))
    (known : folderByEntries folders ev.instanceListId = some source) (world : World) :
    Deletes env elementId (.entry source.id) (world, .waiting)
      (applyMailSetEntryDelete env folders world ev, .done) := by
  simp only [applyMailSetEntryDelete, decoded, known]
  refine .head rfl ?_
  split
  next held => exact .head (by simp only [deletionStep, held, if_true]) .refl
  next gone =>
    exact .head (by simp only [deletionStep, gone]; rfl) (deletes_deleteMail _)

end Alone

/-! ## The three tasks -/

/-- The stores and where each task is. -/
structure Tasks where
  prefetcher : Prefetcher
  prefetch : Option (FolderInfo × PrefetchPhase)
  fetch : Option (FetchTarget × FetchPhase)
  deletion : DeletionPhase

def Tasks.world (tasks : Tasks) : World := tasks.prefetcher.world

def Tasks.setWorld (tasks : Tasks) (world : World) : Tasks :=
  { tasks with prefetcher := { tasks.prefetcher with world := world } }

/-- Who moves. -/
inductive TaskLabel where
  | beginPrefetch (folder : FolderInfo) (bodyPrefetchLimit : Nat)
  | prefetch
  | beginFetch (target : FetchTarget)
  | fetch
  | delete

def taskStep (env : Env) (elementId : String) (deletion : Deletion) (tasks : Tasks) : TaskLabel → Option Tasks
  | .beginPrefetch folder bodyPrefetchLimit =>
    match tasks.prefetch with
    | some _ => none
    | none =>
      some { tasks with
        prefetch := some (folder, .scanning
          (prefetchWindow (tasks.world.store.getFolder folder.id) bodyPrefetchLimit)) }
  | .prefetch =>
    match tasks.prefetch with
    | none => none
    | some (folder, phase) =>
      match prefetchStep env folder tasks.prefetcher phase with
      | none => some { tasks with prefetch := none }
      | some (prefetcher, next) =>
        some { tasks with prefetcher := prefetcher, prefetch := some (folder, next) }
  | .beginFetch target =>
    match tasks.fetch with
    | some _ => none
    | none => some { tasks with fetch := some (target, target.start) }
  | .fetch =>
    match tasks.fetch with
    | none => none
    | some (target, phase) =>
      match fetchStep env target tasks.world phase with
      | none => some { tasks with fetch := none }
      | some (world, next) => some { tasks.setWorld world with fetch := some (target, next) }
  | .delete =>
    match deletionStep env elementId deletion tasks.world tasks.deletion with
    | none => none
    | some (world, next) => some { tasks.setWorld world with deletion := next }

/-! ## When nothing is in the way -/

/-- A body of the mail is in the hands of some task. -/
def Tasks.carries (tasks : Tasks) (elementId : String) : Bool :=
  (tasks.prefetch.any fun task => task.2.carried = some elementId) ||
    tasks.fetch.any fun task => task.1.elementId = elementId && task.2.carries

/-- A disk call of the handler succeeds, or has nothing to delete, and an entry is
the last one of its mail. -/
def DeletionPhase.proceeds (env : Env) (elementId : String) (world : World) : DeletionPhase → Bool
  | .checking => !world.store.isMailAnywhere elementId
  | .deletingRow | .deletingEml | .unindexing =>
    (env.diskFault world.tick).isNone ||
      !world.localStore.hasEml elementId && !decide (world.localStore.indexed elementId)
  | .waiting | .forgetting | .done => true

/-- The deletion begins when no body of the mail is cached or on its way to a
store, proceeds, and no body of the mail is obtained from then on. -/
def undisturbed (env : Env) (elementId : String) (tasks : Tasks) : TaskLabel → Bool
  | .delete =>
    if tasks.deletion = .waiting then
      !decide (tasks.world.store.bodies.holds elementId) && !tasks.carries elementId
    else tasks.deletion.proceeds env elementId tasks.world
  | .prefetch =>
    tasks.deletion = .waiting || !tasks.prefetch.any fun task => task.2.obtains env elementId tasks.world
  | .fetch =>
    tasks.deletion = .waiting || !tasks.fetch.any fun task =>
        task.1.elementId = elementId && task.2.obtains env task.1 tasks.world
  | .beginPrefetch _ _ | .beginFetch _ => true

/-! ## What a step leaves behind -/

/-- No body file, no index row and no cached body of the mail. -/
structure NothingLeft (elementId : String) (world : World) : Prop where
  file : ¬ world.localStore.hasEml elementId
  index : ¬ world.localStore.indexed elementId
  cache : ¬ world.store.bodies.holds elementId

/-- Nothing of the mail that was not there before. -/
structure AddsNothing (elementId : String) (before after : World) : Prop where
  file : after.localStore.hasEml elementId → before.localStore.hasEml elementId
  index : after.localStore.indexed elementId → before.localStore.indexed elementId
  cache : after.store.bodies.holds elementId → before.store.bodies.holds elementId

namespace AddsNothing

variable {env : Env} {elementId : String}

theorem of_same {before after : World} (sameDisk : after.localStore = before.localStore)
    (sameBodies : after.store.bodies = before.store.bodies) : AddsNothing elementId before after where
  file := by
    rw [sameDisk]
    exact id
  index := by
    rw [sameDisk]
    exact id
  cache := by
    rw [sameBodies]
    exact id

theorem refl (world : World) : AddsNothing elementId world world := of_same rfl rfl

theorem call {α : Type} {effect : LocalStore → α × LocalStore} (world : World)
    (file : ∀ store, (effect store).2.hasEml elementId → store.hasEml elementId)
    (index : ∀ store, (effect store).2.indexed elementId → store.indexed elementId) :
    AddsNothing elementId world (world.call env effect).2 := by
  refine ⟨?_, ?_, by simp⟩
  · unfold World.call
    split
    · exact id
    · exact file _
  · unfold World.call
    split
    · exact id
    · exact index _

theorem mapStore {change : MailStore → MailStore} (world : World)
    (cache : (change world.store).bodies.holds elementId → world.store.bodies.holds elementId) :
    AddsNothing elementId world (world.mapStore change) := ⟨id, id, cache⟩

end AddsNothing

/-! ## The prefetch -/

section Prefetch

variable {env : Env} {folder : FolderInfo} {elementId : String} {state next : Prefetcher}
  {phase later : PrefetchPhase}

/-- A pass adds to the stores only the body it has in its hands, and has one in its
hands only after it got it. -/
theorem prefetchStep_spares (stepped : prefetchStep env folder state phase = some (next, later))
    (other : phase.carried ≠ some elementId) : AddsNothing elementId state.world next.world ∧
      (phase.obtains env elementId state.world = false → later.carried ≠ some elementId) := by
  obtain ⟨after, history⟩ := next
  have move : PrefetchMove env folder state.world phase after later := prefetchMove stepped
  have different : ∀ {carried}, phase.carried = some carried → elementId ≠ carried := by
    rintro carried here rfl
    exact other here
  cases move with
  | looks empty stillEmpty sameDisk sameStore =>
    refine ⟨.of_same sameDisk (by rw [sameStore]), fun _ => ?_⟩
    rw [later.carried_eq, stillEmpty]
    exact nofun
  | obtains answered =>
    refine ⟨.of_same rfl rfl, ?_⟩
    rintro denied ⟨⟩
    simp [PrefetchPhase.obtains, answered, Except.isOk, Except.toBool] at denied
  | writes goesOn =>
    refine ⟨.call _ (by simp [different rfl]) (by simp), fun _ => ?_⟩
    obtain rfl | rfl := goesOn <;> exact other
  | marks => exact ⟨.call _ (by simp) (by simp), fun _ => other⟩
  | indexes =>
    refine ⟨?_, fun _ => other⟩
    unfold indexDetails
    split
    · exact .refl _
    · exact .call _ (by simp) (by simp [different rfl])
  | completes => exact ⟨.mapStore _ (by simp), fun _ => other⟩
  | publishes =>
    exact ⟨.mapStore _ fun held => (BodyCache.insert_holds_imp held).resolve_left (different rfl), nofun⟩

end Prefetch

/-! ## The fetch -/

section Fetch

variable {env : Env} {target : FetchTarget} {elementId : String} {world next : World}
  {phase later : FetchPhase}

theorem lookUp_addsNothing (asked : String) (world : World) : AddsNothing elementId world (lookUp asked world).2 :=
  ⟨id, id, (BodyCache.cached_holds asked elementId _).mp⟩

theorem readBody_addsNothing (asked : String) (world : World) :
    AddsNothing elementId world (readBody env asked world).2 := by
  unfold readBody
  split
  · dsimp only
    split <;> exact .call _ (by simp) (by simp)
  · exact .refl _

/-- The same of a fetch. -/
theorem fetchStep_spares (stepped : fetchStep env target world phase = some (next, later))
    (other : target.elementId = elementId → phase.carries = false) : AddsNothing elementId world next ∧
      (target.elementId = elementId → phase.obtains env target world = false → later.carries = false) := by
  have different : phase.hand.isSome → elementId ≠ target.elementId := by
    rintro held rfl
    simp [phase.carries_eq, held] at other
  cases fetchMove stepped with
  | looksUp empty stillEmpty =>
    exact ⟨lookUp_addsNothing _ _, fun _ _ => by rw [later.carries_eq, stillEmpty]; rfl⟩
  | asks empty stillEmpty sameDisk sameBodies =>
    exact ⟨.of_same sameDisk sameBodies, fun _ _ => by rw [later.carries_eq, stillEmpty]; rfl⟩
  | reads isRead gets =>
    refine ⟨readBody_addsNothing _ _, fun _ denied => ?_⟩
    rw [later.carries_eq, gets]
    obtain rfl | rfl := isRead <;> exact denied
  | caches isCaching empty =>
    have unheld := different (by obtain rfl | rfl := isCaching <;> rfl)
    exact ⟨.mapStore _ fun held => (BodyCache.insert_holds_imp held).resolve_left unheld,
      fun _ _ => by rw [later.carries_eq, empty]; rfl⟩
  | obtains answered =>
    refine ⟨.of_same rfl rfl, fun _ denied => ?_⟩
    simp [FetchPhase.obtains, answered, Except.isOk, Except.toBool] at denied
  | writes goesOn =>
    exact ⟨.call _ (by simp [different rfl]) (by simp),
      fun same => absurd same.symm (different rfl)⟩
  | marks =>
    exact ⟨.call _ (by simp) (by simp), fun same => absurd same.symm (different rfl)⟩
  | completes =>
    exact ⟨.mapStore _ (by simp), fun same => absurd same.symm (different rfl)⟩
  | publishes =>
    exact ⟨.mapStore _ fun held => (BodyCache.insert_holds_imp held).resolve_left (different rfl),
      fun _ _ => rfl⟩

end Fetch

/-! ## The deletion -/

section Handler

variable {env : Env} {elementId : String} {deletion : Deletion} {world next : World}
  {phase later : DeletionPhase}

theorem deletionWrite_addsNothing {after : DeletionPhase}
    (world : World) (file : ∀ store, (effect store).hasEml elementId → store.hasEml elementId)
    (index : ∀ store, (effect store).indexed elementId → store.indexed elementId) :
    AddsNothing elementId world (deletionWrite env deletion effect after world).1 := by
  unfold deletionWrite
  dsimp only
  split <;> exact .call world file index

theorem deletionStep_addsNothing (stepped : deletionStep env elementId deletion world phase = some (next, later)) :
    AddsNothing elementId world next := by
  have adds : ∀ {task : World × DeletionPhase}, AddsNothing elementId world task.1 →
      some task = some (next, later) → AddsNothing elementId world next := by
    rintro task added ⟨⟩
    exact added
  cases phase with
  | waiting =>
    cases deletion with
    | mail =>
      cases stepped
      exact .refl _
    | entry folderId =>
      cases stepped
      exact .mapStore _ (by simp)
  | checking =>
    simp only [deletionStep] at stepped
    split at stepped <;> cases stepped <;> exact .refl _
  | deletingRow => exact adds (deletionWrite_addsNothing world (by simp) (by simp)) stepped
  | deletingEml => exact adds (deletionWrite_addsNothing world (by simp) (by simp)) stepped
  | unindexing => exact adds (deletionWrite_addsNothing world (by simp) (by simp)) stepped
  | forgetting =>
    cases stepped
    exact .mapStore _ (by simp)
  | done => simp [deletionStep] at stepped

/-- A disk call of a deletion that proceeds does its work, or the mail has neither
file nor index row. -/
theorem deletionWrite_cases {after : DeletionPhase} (proceeds : (env.diskFault world.tick).isNone ||
      !world.localStore.hasEml elementId && !decide (world.localStore.indexed elementId))
    (stepped : some (deletionWrite env deletion effect after world) = some (next, later)) :
    (later = after ∧ next.localStore = effect world.localStore) ∨
      ¬ next.localStore.hasEml elementId ∧ ¬ next.localStore.indexed elementId := by
  cases fault : env.diskFault world.tick with
  | none =>
    simp only [deletionWrite, World.call, fault] at stepped
    cases stepped
    exact .inl ⟨rfl, rfl⟩
  | some error =>
    simp only [deletionWrite, World.call, fault] at stepped
    cases stepped
    exact .inr (by simpa [fault] using proceeds)

/-- The file has been deleted by then. -/
def DeletionPhase.fileGone : DeletionPhase → Bool
  | .unindexing | .forgetting | .done => true
  | _ => false

/-- The index row has been deleted by then. -/
def DeletionPhase.indexGone : DeletionPhase → Bool
  | .forgetting | .done => true
  | _ => false

/-- The step that passes such a point does what the point says. -/
theorem deletionStep_clears (stepped : deletionStep env elementId deletion world phase = some (next, later))
    (proceeds : phase.proceeds env elementId world) :
    (later.fileGone → phase.fileGone ∨ ¬ next.localStore.hasEml elementId) ∧
      (later.indexGone → phase.indexGone ∨ ¬ next.localStore.indexed elementId) := by
  cases phase with
  | waiting =>
    cases deletion with
    | mail =>
      cases stepped
      exact ⟨nofun, nofun⟩
    | entry folderId =>
      cases stepped
      exact ⟨nofun, nofun⟩
  | checking =>
    simp only [DeletionPhase.proceeds, Bool.not_eq_true'] at proceeds
    simp only [deletionStep, proceeds, Bool.false_eq_true, if_false] at stepped
    cases stepped
    exact ⟨nofun, nofun⟩
  | deletingRow =>
    obtain ⟨rfl, _⟩ | ⟨noFile, noRow⟩ := deletionWrite_cases proceeds stepped
    · exact ⟨nofun, nofun⟩
    · exact ⟨fun _ => .inr noFile, fun _ => .inr noRow⟩
  | deletingEml =>
    obtain ⟨rfl, deleted⟩ | ⟨noFile, noRow⟩ := deletionWrite_cases proceeds stepped
    · exact ⟨fun _ => .inr (by simp [deleted]), nofun⟩
    · exact ⟨fun _ => .inr noFile, fun _ => .inr noRow⟩
  | unindexing =>
    obtain ⟨rfl, deleted⟩ | ⟨_, noRow⟩ := deletionWrite_cases proceeds stepped
    · exact ⟨fun _ => .inl rfl, fun _ => .inr (by simp [deleted])⟩
    · exact ⟨fun _ => .inl rfl, fun _ => .inr noRow⟩
  | forgetting => exact ⟨fun _ => .inl rfl, fun _ => .inl rfl⟩
  | done => simp [deletionStep] at stepped

end Handler

/-! ## Every schedule -/

section Schedules

variable {env : Env} {elementId : String} {deletion : Deletion} {tasks next : Tasks}

/-- What holds from the beginning of an undisturbed deletion on. -/
structure Clearing (elementId : String) (tasks : Tasks) : Prop where
  cache : ¬ tasks.world.store.bodies.holds elementId
  hands : tasks.carries elementId = false
  file : tasks.deletion.fileGone → ¬ tasks.world.localStore.hasEml elementId
  index : tasks.deletion.indexGone → ¬ tasks.world.localStore.indexed elementId

/-- A step of the others that adds nothing and gets no body. -/
theorem Clearing.of_addsNothing (holds : Clearing elementId tasks)
    (added : AddsNothing elementId tasks.world next.world) (hands : next.carries elementId = false)
    (same : next.deletion = tasks.deletion) : Clearing elementId next where
  cache := holds.cache ∘ added.cache
  hands := hands
  file := fun gone => holds.file (same ▸ gone) ∘ added.file
  index := fun gone => holds.index (same ▸ gone) ∘ added.index

theorem Clearing.prefetch (holds : Clearing elementId tasks) (begun : tasks.deletion ≠ .waiting)
    (allowed : undisturbed env elementId tasks .prefetch)
    (stepped : taskStep env elementId deletion tasks .prefetch = some next) : Clearing elementId next := by
  have hands := holds.hands
  simp only [taskStep] at stepped
  split at stepped
  · cases stepped
  next folder phase here =>
    simp only [Tasks.carries, here, Option.any_some, Bool.or_eq_false_iff,
      decide_eq_false_iff_not] at hands
    simp only [undisturbed, begun, here, Option.any_some, decide_false, Bool.false_or,
      Bool.not_eq_true'] at allowed
    split at stepped
    · cases stepped
      exact holds.of_addsNothing (.refl _) (by simp [Tasks.carries, hands.2]) rfl
    next prefetcher later stepsTo =>
      cases stepped
      obtain ⟨added, empty⟩ := prefetchStep_spares stepsTo hands.1
      refine holds.of_addsNothing added ?_ rfl
      simp [Tasks.carries, hands.2, empty allowed]

theorem Clearing.fetch (holds : Clearing elementId tasks) (begun : tasks.deletion ≠ .waiting)
    (allowed : undisturbed env elementId tasks .fetch)
    (stepped : taskStep env elementId deletion tasks .fetch = some next) : Clearing elementId next := by
  have hands := holds.hands
  simp only [taskStep] at stepped
  split at stepped
  · cases stepped
  next target phase here =>
    simp only [Tasks.carries, here, Option.any_some, Bool.or_eq_false_iff, Bool.and_eq_false_imp,
      decide_eq_true_eq] at hands
    simp only [undisturbed, begun, here, Option.any_some, decide_false, Bool.false_or,
      Bool.not_eq_true', Bool.and_eq_false_imp, decide_eq_true_eq] at allowed
    split at stepped
    · cases stepped
      exact holds.of_addsNothing (.refl _) (by simp [Tasks.carries, hands.1]) rfl
    next world later stepsTo =>
      cases stepped
      obtain ⟨added, empty⟩ := fetchStep_spares stepsTo hands.2
      refine holds.of_addsNothing added ?_ rfl
      simpa [Tasks.carries, Tasks.setWorld, hands.1] using fun same => empty same (allowed same)

/-- The handler's first step finds nothing in the way, and every later one takes
away what its point says. -/
theorem Clearing.delete (holds : tasks.deletion = .waiting ∨ Clearing elementId tasks)
    (allowed : undisturbed env elementId tasks .delete)
    (stepped : taskStep env elementId deletion tasks .delete = some next) : Clearing elementId next := by
  simp only [taskStep] at stepped
  split at stepped
  · cases stepped
  next world later stepsTo =>
    cases stepped
    have added := deletionStep_addsNothing stepsTo
    by_cases waits : tasks.deletion = .waiting
    · simp only [undisturbed, waits, if_true, Bool.and_eq_true, Bool.not_eq_true',
        decide_eq_false_iff_not] at allowed
      have clears := deletionStep_clears stepsTo (by rw [waits]; rfl)
      rw [waits] at clears
      exact
        { cache := allowed.1 ∘ added.cache
          hands := allowed.2
          file := fun gone => (clears.1 gone).resolve_left nofun
          index := fun gone => (clears.2 gone).resolve_left nofun }
    · have clearing := holds.resolve_left waits
      simp only [undisturbed, waits, if_false] at allowed
      have clears := deletionStep_clears stepsTo allowed
      exact
        { cache := clearing.cache ∘ added.cache
          hands := clearing.hands
          file := fun gone => (clears.1 gone).elim (fun before => clearing.file before ∘ added.file) id
          index := fun gone =>
            (clears.2 gone).elim (fun before => clearing.index before ∘ added.index) id }

/-- A task that begins has nothing in its hands. -/
theorem Clearing.begin (holds : Clearing elementId tasks) {label : TaskLabel}
    (begins : (∃ folder limit, label = .beginPrefetch folder limit) ∨ ∃ target, label = .beginFetch target)
    (stepped : taskStep env elementId deletion tasks label = some next) : Clearing elementId next := by
  have hands := holds.hands
  simp only [Tasks.carries, Bool.or_eq_false_iff] at hands
  obtain ⟨folder, limit, rfl⟩ | ⟨target, rfl⟩ := begins
  · simp only [taskStep] at stepped
    split at stepped <;> cases stepped
    refine holds.of_addsNothing (.refl _) ?_ rfl
    simp [Tasks.carries, PrefetchPhase.carried, hands.2]
  · have started : target.start.carries = false := by
      unfold FetchTarget.start
      split <;> rfl
    simp only [taskStep] at stepped
    split at stepped <;> cases stepped
    refine holds.of_addsNothing (.refl _) ?_ rfl
    simp [Tasks.carries, started, hands.1]

/-- Only the handler moves the deletion. -/
theorem taskStep_deletion {label : TaskLabel} (others : label ≠ .delete)
    (stepped : taskStep env elementId deletion tasks label = some next) : next.deletion = tasks.deletion := by
  cases label with
  | delete => exact absurd rfl others
  | beginPrefetch folder limit | beginFetch target =>
    simp only [taskStep] at stepped
    split at stepped <;> cases stepped
    rfl
  | prefetch | fetch =>
    simp only [taskStep] at stepped
    split at stepped
    · cases stepped
    · split at stepped <;> cases stepped <;> rfl

/-- Once an undisturbed deletion has begun, it stays `Clearing`. -/
theorem clearing_step {label : TaskLabel} (allowed : undisturbed env elementId tasks label)
    (holds : tasks.deletion = .waiting ∨ Clearing elementId tasks)
    (stepped : taskStep env elementId deletion tasks label = some next) :
    next.deletion = .waiting ∨ Clearing elementId next := by
  by_cases handler : label = .delete
  · subst handler
    exact .inr (.delete holds allowed stepped)
  by_cases waits : tasks.deletion = .waiting
  · exact .inl ((taskStep_deletion handler stepped).trans waits)
  have clearing := holds.resolve_left waits
  cases label with
  | delete => exact absurd rfl handler
  | beginPrefetch folder limit => exact .inr (clearing.begin (.inl ⟨folder, limit, rfl⟩) stepped)
  | beginFetch target => exact .inr (clearing.begin (.inr ⟨target, rfl⟩) stepped)
  | prefetch => exact .inr (clearing.prefetch waits allowed stepped)
  | fetch => exact .inr (clearing.fetch waits allowed stepped)

end Schedules

/-- In every schedule that does not disturb the deletion, nothing of the mail is
left once the handler is done. -/
theorem deletion_is_final {env : Env} {elementId : String} {deletion : Deletion}
    {start final : Tasks} {schedule : List TaskLabel} (waits : start.deletion = .waiting)
    (steps : Steps (taskStep env elementId deletion) start schedule final)
    (careful : Careful (taskStep env elementId deletion)
      (fun tasks label => undisturbed env elementId tasks label) start schedule)
    (done : final.deletion = .done) : NothingLeft elementId final.world := by
  have settled : final.deletion = .waiting ∨ Clearing elementId final :=
    steps.invariant_of_careful (fun tasks => tasks.deletion = .waiting ∨ Clearing elementId tasks)
      (fun _ _ _ => clearing_step) careful (.inl waits)
  have clearing := settled.resolve_left (by rw [done]; nofun)
  exact
    { file := clearing.file (by rw [done]; rfl)
      index := clearing.index (by rw [done]; rfl)
      cache := clearing.cache }

/-- A mail that is on disk and not cached, in a bridge with nothing under way. -/
def storedMailTasks (mail : StoredMail) (onDisk : List (String × String)) : Tasks :=
  let world := sampleWorld [sampleFolder "inbox" "inboxEntries"] [("inbox", [mail])]
  { prefetcher :=
      { world :=
          { world with
            store := { world.store with bodies := { world.store.bodies with diskFallback := true } }
            localStore :=
              { world.localStore with
                emls := onDisk.foldl (fun emls file => emls.set file.1 file.2) .empty
                mailFts := onDisk } }
        history := .empty }
    prefetch := none
    fetch := none
    deletion := .waiting }

/-- A client opens the mail while it is being deleted, and the server has nothing
for it any more. -/
theorem deletion_is_final_opened :
    let target : FetchTarget := ⟨"inbox", "m1", sampleMail "m1", false⟩
    let schedule : List TaskLabel := [.delete, .delete, .delete, .beginFetch target, .fetch, .fetch,
      .fetch, .delete, .fetch, .delete, .fetch]
    ∃ final, Steps (taskStep (quietEnv (offlineBackend [])) "m1" .mail)
      (storedMailTasks (sampleStored "m1" 7) [("m1", "body")]) schedule final ∧
        NothingLeft "m1" final.world := by
  intro target schedule
  have reached : ∃ final, Steps (taskStep (quietEnv (offlineBackend [])) "m1" .mail)
      (storedMailTasks (sampleStored "m1" 7) [("m1", "body")]) schedule final ∧
        final.deletion = .done := Steps.exists_of_any _ (by decide +kernel)
  obtain ⟨final, steps, done⟩ := reached
  exact ⟨final, steps, deletion_is_final rfl steps (by decide +kernel) done⟩

/-- The mail is deleted while the prefetch waits for its details. The prefetch
then writes, indexes and caches the body of a mail that is gone. -/
theorem deleted_mail_comes_back :
    let inbox := sampleFolder "inbox" "inboxEntries"
    let schedule : List TaskLabel :=
      [.beginPrefetch inbox 0, .prefetch, .prefetch] ++ List.replicate 5 .delete ++ List.replicate 8 .prefetch
    ∃ final, Steps (taskStep (quietEnv (servingBackend [] [])) "m1" .mail)
      (storedMailTasks (sampleStored "m1" 7) []) schedule final ∧
        (final.deletion = .done ∧ final.prefetch.isNone ∧ final.fetch.isNone) ∧
        final.world.localStore.mails.find? "m1" = none ∧
        final.world.localStore.hasEml "m1" ∧ final.world.localStore.indexed "m1" ∧
        final.world.store.bodies.holds "m1" :=
  Steps.exists_of_any _ (by decide +kernel)

end TutaBridge.Runs
