import TutaBridge.Events.HandlerFacts
import TutaBridge.Std.Steps

/-!
# The startup gate

The syncer fills every folder from the cache and may then sync all of them; both
replace whole folders. The event handler waits for the syncer's signal, or for
the syncer to be gone, before it takes its first message. Each task is cut at its
awaits and its calls to the stores, and a schedule interleaves the pieces.
-/

namespace TutaBridge.Runs

open TutaBridge.Std Tuta Store Bridge Sync
open Events

variable (env : Env)

/-- `FULL_METADATA_MARKER`. -/
def fullMetadataMarker : String := "full_metadata_synced_v1"

/-- Where `run_syncer` is. The constructors up to `signalling` are its startup. -/
inductive SyncerPhase where
  /-- Before the folder list is loaded. -/
  | listingFolders
  /-- The folders whose cache is still to be read. -/
  | loading (folders rest : List FolderInfo)
  /-- The rows of a folder are read, `set_folder` comes next. -/
  | cached (folders : List FolderInfo) (folder : FolderInfo) (mails : List StoredMail)
      (rest : List FolderInfo)
  /-- Before the choice whether to run a full sync. -/
  | deciding (folders : List FolderInfo)
  /-- The head of the full sync's loop. -/
  | checking (folders rest : List FolderInfo) (allOk : Bool)
  /-- `sync_folder` before its listing. -/
  | listing (folders : List FolderInfo) (folder : FolderInfo) (rest : List FolderInfo) (allOk : Bool)
  /-- `sync_folder` with the listing, before UIDs, rows and prune. -/
  | listed (folders : List FolderInfo) (folder : FolderInfo) (newMails : List Mail)
      (rest : List FolderInfo) (allOk : Bool)
  /-- `sync_folder` before its `set_folder`. -/
  | persisted (folders : List FolderInfo) (folder : FolderInfo) (mails : List StoredMail)
      (rest : List FolderInfo) (allOk : Bool)
  /-- Before `startup_done` is sent. -/
  | signalling (folders : List FolderInfo)
  /-- After the signal: the backfill and the prefetch, which replace no folder. -/
  | running (folders : List FolderInfo)
  /-- Returned or panicked; its end of `startup_done` is dropped. -/
  | ended

/-- Where `run_event_handler` is. -/
inductive HandlerPhase where
  | waiting
  | idle
  | received (batch : EntityUpdateBatch)
  | creating (batch : EntityUpdateBatch) (folders : List FolderInfo)
      (pending : Dict String PendingMail) (fallbacks : List String) (rest : List EntityUpdateEvent)
  | deleting (batch : EntityUpdateBatch) (folders : List FolderInfo) (fallbacks : List String)
      (rest : List EntityUpdateEvent)
  | updating (batch : EntityUpdateBatch) (folders : List FolderInfo) (fallbacks : List String)
      (rest : List EntityUpdateEvent)
  | syncing (batch : EntityUpdateBatch) (folders : List FolderInfo) (rest : List String)
  | advancing (batch : EntityUpdateBatch)
  | stopped

/-- The two tasks, the stores and the channels between them. -/
structure Startup where
  world : World
  syncer : SyncerPhase
  handler : HandlerPhase
  queue : List EventBusMessage
  closed : Bool
  startupDone : Bool
  shutdown : Bool

/-- Who moves: the syncer, the handler, the event bus client, or whoever signals
the shutdown. `crash` is a panic of the syncer. -/
inductive StartupLabel where
  | syncer
  | crash
  | handler
  | enqueue (msg : EventBusMessage)
  | close
  | shutdown

/-- `do_full_sync`: no cursor is stored yet, or no full sync ever completed. A read
that fails counts as nothing stored. -/
def fullSyncDue (folders : List FolderInfo) (world : World) : Bool × World :=
  let state := world.call env fun store => (store.loadEventBusState, store)
  let needsBootstrap := match state.1 with
    | .ok ids => ids.rows.isEmpty
    | .error _ => true
  let marker := state.2.call env fun store => (store.getMeta fullMetadataMarker, store)
  let fullMetadataDone := match marker.1 with
    | .ok value => value.isSome
    | .error _ => false
  ((needsBootstrap || !fullMetadataDone) && !folders.isEmpty, marker.2)

/-- The next piece of `run_syncer`. -/
def syncerStep (state : Startup) : Option Startup :=
  match state.syncer with
  | .listingFolders =>
    let answer := retry env.backend.listFolders maxRetries state.world
    let folders := match answer.1 with
      | .ok folders => folders
      | .error _ => []
    some { state with
      world := answer.2.mapStore (·.setFolderList folders)
      syncer := .loading folders folders }
  | .loading folders [] => some { state with syncer := .deciding folders }
  | .loading folders (folder :: rest) =>
    let read := readCachedFolder env folder state.world
    match read.1 with
    | .ok mails =>
      some { state with world := read.2, syncer := .cached folders folder mails rest }
    | .error _ => some { state with world := read.2, syncer := .loading folders rest }
  | .cached folders folder mails rest =>
    some { state with
      world := state.world.mapStore (·.setFolder folder.id mails)
      syncer := .loading folders rest }
  | .deciding folders =>
    let due := fullSyncDue env folders state.world
    if due.1 then some { state with world := due.2, syncer := .checking folders folders true }
    else some { state with world := due.2, syncer := .signalling folders }
  | .checking folders [] allOk =>
    some { state with
      world := if allOk then state.world.write env (·.setMeta fullMetadataMarker "1")
        else state.world
      syncer := .signalling folders }
  | .checking folders (folder :: rest) allOk =>
    if state.shutdown then some { state with syncer := .ended }
    else some { state with syncer := .listing folders folder rest allOk }
  | .listing folders folder rest allOk =>
    let answer := listFolder env folder state.world
    match answer.1 with
    | .ok newMails =>
      some { state with
        world := answer.2
        syncer := .listed folders folder newMails rest allOk }
    | .error _ =>
      some { state with world := answer.2, syncer := .checking folders rest false }
  | .listed folders folder newMails rest allOk =>
    let persisted := persistListing env folder newMails state.world
    some { state with
      world := persisted.2
      syncer := .persisted folders folder persisted.1 rest allOk }
  | .persisted folders folder mails rest allOk =>
    some { state with
      world := state.world.mapStore (·.setFolder folder.id mails)
      syncer := .checking folders rest allOk }
  | .signalling folders => some { state with startupDone := true, syncer := .running folders }
  | .running _ => if state.shutdown then some { state with syncer := .ended } else none
  | .ended => none

/-- The next piece of `run_event_handler`. Only its two `select!`s look at the
shutdown, and they look there first. -/
def handlerStep (state : Startup) : Option Startup :=
  match state.handler with
  | .waiting =>
    if state.shutdown then some { state with handler := .stopped }
    else
      match state.startupDone, state.syncer with
      | true, _ | _, .ended => some { state with handler := .idle }
      | _, _ => none
  | .idle =>
    if state.shutdown then some { state with handler := .stopped }
    else
      match state.queue with
      | [] => if state.closed then some { state with handler := .stopped } else none
      | .entityUpdate batch :: rest =>
        some { state with handler := .received batch, queue := rest }
      | _ :: rest => some { state with queue := rest }
  | .received batch =>
    let bucketed := bucketUpdates batch.updates
    let start := beginBatch env bucketed state.world
    some { state with
      world := start.world
      handler := .creating batch start.world.store.folderList start.pending start.fallbackFolders
        bucketed.mailSetEntryCreates }
  | .creating batch folders _ fallbacks [] =>
    some { state with
      handler := .deleting batch folders fallbacks (bucketUpdates batch.updates).mailSetEntryDeletes }
  | .creating batch folders pending fallbacks (ev :: rest) =>
    let run := applyMailSetEntryCreate env folders ⟨state.world, pending, fallbacks⟩ ev
    some { state with
      world := run.world
      handler := .creating batch folders run.pending run.fallbackFolders rest }
  | .deleting batch folders fallbacks [] =>
    some { state with
      handler := .updating batch folders fallbacks (bucketUpdates batch.updates).mailEvents }
  | .deleting batch folders fallbacks (ev :: rest) =>
    some { state with
      world := applyMailSetEntryDelete env folders state.world ev
      handler := .deleting batch folders fallbacks rest }
  | .updating batch folders fallbacks [] =>
    some { state with
      handler := .syncing batch folders (env.hashOrder state.world.tick fallbacks) }
  | .updating batch folders fallbacks (ev :: rest) =>
    some { state with
      world := applyMailEvent env state.world ev
      handler := .updating batch folders fallbacks rest }
  | .syncing batch _ [] => some { state with handler := .advancing batch }
  | .syncing batch folders (entriesListId :: rest) =>
    some { state with
      world := fallbackSync env folders state.world entriesListId
      handler := .syncing batch folders rest }
  | .advancing batch =>
    some { state with world := advanceCursor env batch state.world, handler := .idle }
  | .stopped => none

def startupStep (state : Startup) : StartupLabel → Option Startup
  | .syncer => syncerStep env state
  | .crash => some { state with syncer := .ended }
  | .handler => handlerStep env state
  | .enqueue msg => if state.closed then none else some { state with queue := state.queue ++ [msg] }
  | .close => some { state with closed := true }
  | .shutdown => some { state with shutdown := true }

/-- The state in which the tasks are spawned. -/
def Startup.initial (world : World) : Startup where
  world := world
  syncer := .listingFolders
  handler := .waiting
  queue := []
  closed := false
  startupDone := false
  shutdown := false

/-- The next piece of the syncer replaces a folder in memory, or prunes the
`mails` table. -/
def SyncerPhase.Replaces : SyncerPhase → Prop
  | .cached .. | .listed .. | .persisted .. => True
  | _ => False

/-- The syncer is done with its startup. -/
def SyncerPhase.PastStartup : SyncerPhase → Prop
  | .running _ | .ended => True
  | _ => False

/-- The handler is in the middle of a batch. -/
def HandlerPhase.Applying : HandlerPhase → Prop
  | .waiting | .idle | .stopped => False
  | _ => True

/-- The handler has left the gate. -/
def HandlerPhase.PastGate : HandlerPhase → Prop
  | .waiting | .stopped => False
  | _ => True

/-! ## What one step can do -/

section Steps

variable {env : Env} {state next : Startup}

/-- The syncer touches neither the handler nor the channels but its own, and never
goes back to its startup. -/
theorem syncerStep_frame (stepped : syncerStep env state = some next) :
    next.handler = state.handler ∧ next.queue = state.queue ∧ next.closed = state.closed ∧
      next.shutdown = state.shutdown ∧ (state.syncer.PastStartup → next.syncer.PastStartup) ∧
      (next.startupDone = true → state.startupDone = true ∨ next.syncer.PastStartup) := by
  cases phase : state.syncer with
  | loading folders rest =>
    cases rest with
    | nil =>
      simp only [syncerStep, phase] at stepped
      cases stepped
      simp_all [SyncerPhase.PastStartup]
    | cons folder rest =>
      simp only [syncerStep, phase] at stepped
      split at stepped <;> cases stepped <;> simp_all [SyncerPhase.PastStartup]
  | checking folders rest allOk =>
    cases rest with
    | nil =>
      simp only [syncerStep, phase] at stepped
      cases stepped
      simp_all [SyncerPhase.PastStartup]
    | cons folder rest =>
      simp only [syncerStep, phase] at stepped
      split at stepped <;> cases stepped <;> simp_all [SyncerPhase.PastStartup]
  | deciding folders =>
    simp only [syncerStep, phase] at stepped
    split at stepped <;> cases stepped <;> simp_all [SyncerPhase.PastStartup]
  | listing folders folder rest allOk =>
    simp only [syncerStep, phase] at stepped
    split at stepped <;> cases stepped <;> simp_all [SyncerPhase.PastStartup]
  | running folders =>
    simp only [syncerStep, phase] at stepped
    split at stepped
    · cases stepped
      simp_all [SyncerPhase.PastStartup]
    · cases stepped
  | ended =>
    simp only [syncerStep, phase] at stepped
    cases stepped
  | listingFolders | cached | listed | persisted | signalling =>
    simp only [syncerStep, phase] at stepped
    cases stepped
    simp_all [SyncerPhase.PastStartup]

/-- The handler leaves the gate only after the signal or the end of the syncer,
and stops only on the shutdown or on a drained, closed channel. -/
theorem handlerStep_frame (stepped : handlerStep env state = some next) :
    next.syncer = state.syncer ∧ next.startupDone = state.startupDone ∧
      next.closed = state.closed ∧ next.shutdown = state.shutdown ∧
      (next.handler.PastGate → state.handler.PastGate ∨ state.startupDone = true ∨ state.syncer = .ended) ∧
      (next.handler = .stopped → state.shutdown = true ∨ (state.closed = true ∧ next.queue = [])) := by
  cases phase : state.handler with
  | waiting =>
    simp only [handlerStep, phase] at stepped
    split at stepped
    · cases stepped
      simp_all [HandlerPhase.PastGate]
    · split at stepped <;> cases stepped <;> simp_all [HandlerPhase.PastGate]
  | idle =>
    simp only [handlerStep, phase] at stepped
    split at stepped
    · cases stepped
      simp_all [HandlerPhase.PastGate]
    · split at stepped
      · split at stepped
        · cases stepped
          simp_all [HandlerPhase.PastGate]
        · cases stepped
      · cases stepped
        simp_all [HandlerPhase.PastGate]
      · cases stepped
        simp_all [HandlerPhase.PastGate]
  | stopped =>
    simp only [handlerStep, phase] at stepped
    cases stepped
  | creating batch folders pending fallbacks rest =>
    cases rest <;> simp only [handlerStep, phase] at stepped <;> cases stepped <;>
      simp_all [HandlerPhase.PastGate]
  | deleting batch folders fallbacks rest | updating batch folders fallbacks rest
  | syncing batch folders rest =>
    cases rest <;> simp only [handlerStep, phase] at stepped <;> cases stepped <;>
      simp_all [HandlerPhase.PastGate]
  | received | advancing =>
    simp only [handlerStep, phase] at stepped
    cases stepped
    simp_all [HandlerPhase.PastGate]

end Steps

/-- While the handler may take messages the syncer is past its startup. -/
structure GateHolds (state : Startup) : Prop where
  gate : state.handler.PastGate → state.syncer.PastStartup
  done : state.startupDone = true → state.syncer.PastStartup
  stopped : state.handler = .stopped → state.shutdown = true ∨ (state.closed = true ∧ state.queue = [])

section Invariant

variable {env : Env}

theorem gateHolds_initial (world : World) : GateHolds (.initial world) where
  gate past := past.elim
  done signalled := by cases signalled
  stopped isStopped := by cases isStopped

theorem gateHolds_step (state : Startup) (label : StartupLabel) (next : Startup)
    (holds : GateHolds state) (stepped : startupStep env state label = some next) : GateHolds next := by
  cases label with
  | syncer =>
    obtain ⟨handler, queue, closed, shutdown, past, done⟩ := syncerStep_frame stepped
    refine ⟨fun pastGate => ?_, fun signalled => ?_, fun isStopped => ?_⟩
    · rw [handler] at pastGate
      exact past (holds.gate pastGate)
    · rcases done signalled with earlier | now
      · exact past (holds.done earlier)
      · exact now
    · rw [handler] at isStopped
      rw [shutdown, closed, queue]
      exact holds.stopped isStopped
  | crash =>
    cases stepped
    exact ⟨fun _ => trivial, fun _ => trivial, holds.stopped⟩
  | handler =>
    obtain ⟨syncer, startupDone, closed, shutdown, past, stops⟩ := handlerStep_frame stepped
    refine ⟨fun pastGate => ?_, fun signalled => ?_, fun isStopped => ?_⟩
    · rw [syncer]
      rcases past pastGate with earlier | signalled | isEnded
      · exact holds.gate earlier
      · exact holds.done signalled
      · rw [isEnded]
        trivial
    · rw [startupDone] at signalled
      rw [syncer]
      exact holds.done signalled
    · rw [closed, shutdown]
      exact stops isStopped
  | enqueue msg =>
    simp only [startupStep] at stepped
    split at stepped
    · cases stepped
    next notClosed =>
      cases stepped
      refine ⟨holds.gate, holds.done, fun isStopped => ?_⟩
      rcases holds.stopped isStopped with signalled | ⟨closed, _⟩
      · exact .inl signalled
      · exact absurd closed notClosed
  | close =>
    cases stepped
    refine ⟨holds.gate, holds.done, fun isStopped => ?_⟩
    rcases holds.stopped isStopped with signalled | ⟨_, drained⟩
    · exact .inl signalled
    · exact .inr ⟨rfl, drained⟩
  | shutdown =>
    cases stepped
    exact ⟨holds.gate, holds.done, fun _ => .inl rfl⟩

/-- No step takes the syncer back into its startup. -/
theorem pastStartup_step (state : Startup) (label : StartupLabel) (next : Startup)
    (past : state.syncer.PastStartup) (stepped : startupStep env state label = some next) :
    next.syncer.PastStartup := by
  cases label with
  | syncer => exact (syncerStep_frame stepped).2.2.2.2.1 past
  | crash =>
    cases stepped
    trivial
  | handler =>
    rw [(handlerStep_frame stepped).1]
    exact past
  | enqueue msg =>
    simp only [startupStep] at stepped
    split at stepped <;> cases stepped
    exact past
  | close =>
    cases stepped
    exact past
  | shutdown =>
    cases stepped
    exact past

theorem not_replaces_of_pastStartup {phase : SyncerPhase} (past : phase.PastStartup) : ¬ phase.Replaces := by
  cases phase with
  | running | ended => exact id
  | _ => exact past.elim

theorem pastGate_of_applying {phase : HandlerPhase} (applying : phase.Applying) : phase.PastGate := by
  cases phase with
  | waiting | idle | stopped => exact applying.elim
  | _ => trivial

end Invariant

/-! ## The handler on its own -/

/-- The world when the batch in hand is done, if nothing else moves. -/
def finishBatch (world : World) : HandlerPhase → World
  | .waiting | .idle | .stopped => world
  | .received batch => process env world (.entityUpdate batch)
  | .creating batch folders pending fallbacks rest =>
    let run := rest.foldl (applyMailSetEntryCreate env folders) ⟨world, pending, fallbacks⟩
    let bucketed := bucketUpdates batch.updates
    let deleted := bucketed.mailSetEntryDeletes.foldl (applyMailSetEntryDelete env folders) run.world
    let updated := bucketed.mailEvents.foldl (applyMailEvent env) deleted
    advanceCursor env batch ((env.hashOrder updated.tick run.fallbackFolders).foldl
      (fallbackSync env folders) updated)
  | .deleting batch folders fallbacks rest =>
    let deleted := rest.foldl (applyMailSetEntryDelete env folders) world
    let updated := (bucketUpdates batch.updates).mailEvents.foldl (applyMailEvent env) deleted
    advanceCursor env batch ((env.hashOrder updated.tick fallbacks).foldl (fallbackSync env folders) updated)
  | .updating batch folders fallbacks rest =>
    let updated := rest.foldl (applyMailEvent env) world
    advanceCursor env batch ((env.hashOrder updated.tick fallbacks).foldl (fallbackSync env folders) updated)
  | .syncing batch folders rest =>
    advanceCursor env batch (rest.foldl (fallbackSync env folders) world)
  | .advancing batch => advanceCursor env batch world

/-- The handler alone takes the first state to the second. -/
def HandlerReaches (state final : Startup) : Prop :=
  ∃ rounds, Steps (startupStep env) state (List.replicate rounds .handler) final

namespace HandlerReaches

variable {env : Env} {state next final : Startup}

theorem refl (state : Startup) : HandlerReaches env state state := ⟨0, .nil state⟩

theorem head (stepped : handlerStep env state = some next)
    (later : HandlerReaches env next final) : HandlerReaches env state final := by
  obtain ⟨rounds, steps⟩ := later
  exact ⟨rounds + 1, .cons stepped steps⟩

theorem trans (early : HandlerReaches env state next) (late : HandlerReaches env next final) :
    HandlerReaches env state final := by
  obtain ⟨first, early⟩ := early
  obtain ⟨second, late⟩ := late
  refine ⟨first + second, ?_⟩
  rw [← List.replicate_append_replicate]
  exact early.append late

end HandlerReaches

section Drain

variable {env : Env}

section

variable (state : Startup) (batch : EntityUpdateBatch) (folders : List FolderInfo)

include state batch folders

theorem syncing_finishes (rest : List String) :
    HandlerReaches env { state with handler := .syncing batch folders rest }
      { state with
        world := finishBatch env state.world (.syncing batch folders rest), handler := .idle } := by
  induction rest generalizing state with
  | nil => exact .head rfl (.head rfl (.refl _))
  | cons entriesListId rest ih =>
    exact .head rfl (ih
      { state with world := fallbackSync env folders state.world entriesListId })

theorem updating_finishes (fallbacks : List String) (rest : List EntityUpdateEvent) :
    HandlerReaches env { state with handler := .updating batch folders fallbacks rest }
      { state with
        world := finishBatch env state.world (.updating batch folders fallbacks rest)
        handler := .idle } := by
  induction rest generalizing state with
  | nil => exact .head rfl (syncing_finishes state batch folders _)
  | cons ev rest ih =>
    exact .head rfl (ih { state with world := applyMailEvent env state.world ev })

theorem deleting_finishes (fallbacks : List String) (rest : List EntityUpdateEvent) :
    HandlerReaches env { state with handler := .deleting batch folders fallbacks rest }
      { state with
        world := finishBatch env state.world (.deleting batch folders fallbacks rest)
        handler := .idle } := by
  induction rest generalizing state with
  | nil => exact .head rfl (updating_finishes state batch folders fallbacks _)
  | cons ev rest ih =>
    exact .head rfl (ih
      { state with world := applyMailSetEntryDelete env folders state.world ev })

theorem creating_finishes
    (pending : Dict String PendingMail) (fallbacks : List String) (rest : List EntityUpdateEvent) :
    HandlerReaches env { state with handler := .creating batch folders pending fallbacks rest }
      { state with
        world := finishBatch env state.world (.creating batch folders pending fallbacks rest)
        handler := .idle } := by
  induction rest generalizing state pending fallbacks with
  | nil => exact .head rfl (deleting_finishes state batch folders fallbacks _)
  | cons ev rest ih =>
    let run := applyMailSetEntryCreate env folders ⟨state.world, pending, fallbacks⟩ ev
    exact .head rfl (ih { state with world := run.world } run.pending run.fallbackFolders)

end

/-- A batch in hand is finished without waiting for anything, and as `process`
finishes it. -/
theorem applying_finishes (state : Startup) (applying : state.handler.Applying) : HandlerReaches env state
      { state with world := finishBatch env state.world state.handler, handler := .idle } := by
  obtain ⟨world, syncer, handler, queue, closed, startupDone, shutdown⟩ := state
  cases handler with
  | waiting | idle | stopped => exact applying.elim
  | received batch =>
    exact .head rfl (creating_finishes
      ⟨(beginBatch env (bucketUpdates batch.updates) world).world, syncer, .received batch, queue,
        closed, startupDone, shutdown⟩ batch _ _ _ _)
  | creating batch folders pending fallbacks rest =>
    exact creating_finishes ⟨world, syncer, .idle, queue, closed, startupDone, shutdown⟩ batch
      folders pending fallbacks rest
  | deleting batch folders fallbacks rest =>
    exact deleting_finishes ⟨world, syncer, .idle, queue, closed, startupDone, shutdown⟩ batch
      folders fallbacks rest
  | updating batch folders fallbacks rest =>
    exact updating_finishes ⟨world, syncer, .idle, queue, closed, startupDone, shutdown⟩ batch
      folders fallbacks rest
  | syncing batch folders rest =>
    exact syncing_finishes ⟨world, syncer, .idle, queue, closed, startupDone, shutdown⟩ batch folders rest
  | advancing batch => exact .head rfl (.refl _)

/-- A dropped sender opens the gate. -/
theorem gate_opens {state : Startup} (isWaiting : state.handler = .waiting)
    (isEnded : state.syncer = .ended) (notShutdown : state.shutdown = false) :
    handlerStep env state = some { state with handler := .idle } := by
  obtain ⟨world, syncer, handler, queue, closed, startupDone, shutdown⟩ := state
  cases isWaiting
  cases isEnded
  cases notShutdown
  cases startupDone <;> rfl

/-- From `idle`, without a shutdown, the handler processes all that is queued. -/
theorem idle_drains (state : Startup) (isIdle : state.handler = .idle)
    (notShutdown : state.shutdown = false) :
    HandlerReaches env state
      { state with world := state.queue.foldl (process env) state.world, queue := [] } := by
  obtain ⟨world, syncer, handler, queue, closed, startupDone, shutdown⟩ := state
  cases isIdle
  cases notShutdown
  induction queue generalizing world with
  | nil => exact .refl _
  | cons msg rest ih =>
    cases msg with
    | entityUpdate batch =>
      refine .head rfl (.trans (applying_finishes _ trivial) ?_)
      exact ih (process env world (.entityUpdate batch))
    | _ => exact .head rfl (ih world)

end Drain

/-- In every schedule: after the handler was in the middle of a batch, no piece of
the syncer replaces a folder or prunes the table; and if the syncer is gone and
no shutdown was signalled, the handler alone, whatever it is at, finishes its
batch and applies all that is queued. -/
theorem startup_gate (env : Env) (world : World) {schedule : List StartupLabel} {state : Startup}
    (reached : Steps (startupStep env) (.initial world) schedule state) :
    (state.handler.Applying → ∀ later final, Steps (startupStep env) state later final → ¬ final.syncer.Replaces) ∧
      (state.syncer = .ended → state.shutdown = false → ∃ final, HandlerReaches env state final ∧ final.queue = [] ∧
          final.world = state.queue.foldl (process env) (finishBatch env state.world state.handler)) := by
  have holds : GateHolds state := reached.invariant GateHolds gateHolds_step (gateHolds_initial world)
  constructor
  · intro applying later final steps
    apply not_replaces_of_pastStartup
    exact steps.invariant (fun state => state.syncer.PastStartup) pastStartup_step
      (holds.gate (pastGate_of_applying applying))
  · intro isEnded notShutdown
    cases phase : state.handler with
    | waiting =>
      exact ⟨_, .head (gate_opens phase isEnded notShutdown) (idle_drains _ rfl notShutdown), rfl,
        rfl⟩
    | idle => exact ⟨_, idle_drains state phase notShutdown, rfl, rfl⟩
    | stopped =>
      rcases holds.stopped phase with signalled | ⟨_, drained⟩
      · rw [notShutdown] at signalled
        cases signalled
      · refine ⟨state, .refl state, drained, ?_⟩
        rw [drained]
        rfl
    | _ =>
      have applying : state.handler.Applying := by
        rw [phase]
        trivial
      refine ⟨_, (applying_finishes state applying).trans (idle_drains _ rfl notShutdown), rfl, ?_⟩
      rw [phase]

/-- The delete of a mail arrives while the gate is shut, the syncer panics, and the handler takes the message. -/
theorem startup_gate_after_crash :
    let env := quietEnv (offlineBackend [])
    let world := sampleWorld [sampleFolder "inbox" "entries"] [("inbox", [sampleStored "m1" 1])]
    let batch : EntityUpdateBatch := ⟨"b1", "g1", [sampleEvent mailTypeId "list1" "m1" .delete]⟩
    let state : Startup := ⟨world, .ended, .received batch, [], false, false, false⟩
    (∃ final, HandlerReaches env state final ∧ final.queue = [] ∧ final.world.store.getFolder "inbox" = []) ∧
      ¬ state.syncer.Replaces := by
  intro env world batch state
  have reached : Steps (startupStep env) (.initial world)
      [.enqueue (.entityUpdate batch), .crash, .handler, .handler] state :=
    .cons rfl (.cons rfl (.cons rfl (.cons rfl (.nil state))))
  obtain ⟨gate, drains⟩ := startup_gate env world reached
  obtain ⟨final, reaches, isEmpty, isFinal⟩ := drains rfl rfl
  have deleted : (process env world (.entityUpdate batch)).store.getFolder "inbox" = [] := by decide +kernel
  have same : final.world = process env world (.entityUpdate batch) := isFinal
  exact ⟨⟨final, reaches, isEmpty, same ▸ deleted⟩, gate trivial [] state (.nil state)⟩

end TutaBridge.Runs
