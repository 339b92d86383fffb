import TutaBridge.Std.Guarded
import TutaBridge.Store.Watching
import TutaBridge.Sync.Prefetch

/-!
# The prefetch loop

`prefetch_loop` sweeps the listed folders, one pass each, and then waits for a change of the
store or for the next retry of a failed mail. A deadline that is already past when the sweep
ends arms no timer. Other tasks change the stores between any two pieces of the loop, and
time passes.
-/

namespace TutaBridge.Sync

open TutaBridge.Std Tuta Store Bridge

/-- `next_attachment_retry`. -/
def nextAttachmentRetry (history : Dict String AttachmentRetry) (now : Nat) : Option Nat :=
  ((history.rows.filterMap fun row =>
    if now ≤ row.2.nextAttempt then some (row.2.nextAttempt - now) else none).filter (· ≠ 0)).min?

/-- Where the loop is. A timer is the instant it fires at. -/
inductive LoopPhase where
  | subscribing
  | starting
  | sweeping (rest : List FolderInfo)
  | passing (folder : FolderInfo) (pass : PrefetchPhase) (rest : List FolderInfo)
  | waiting (timer : Option Nat)
  | stopped

/-- The loop with what it shares. `seen` is the generation its watch has seen. `dealtAt` is
no variable of the source: it is when the running sweep last did something about a mail. -/
structure PrefetchLoop where
  prefetcher : Prefetcher
  phase : LoopPhase
  seen : Nat
  shutdown : Bool
  dealtAt : Dict String Nat

/-- The mails a pass has still to come to. -/
def PrefetchPhase.queue : PrefetchPhase → List StoredMail
  | .scanning rest | .checking _ _ rest | .requesting _ _ _ rest | .attaching _ _ _ rest
  | .writing _ _ rest | .marking _ _ rest | .indexing _ _ rest | .completing _ _ rest
  | .publishing _ _ rest => rest

/-- The mail a pass tries to get the body of. -/
def PrefetchPhase.attempt : PrefetchPhase → Option String
  | .scanning _ => none
  | .checking elementId _ _ | .requesting elementId _ _ _ | .attaching elementId _ _ _
  | .writing elementId _ _ | .marking elementId _ _ | .indexing elementId _ _
  | .completing elementId _ _ | .publishing elementId _ _ => some elementId

/-- The mail the next piece of a pass is about. -/
def PrefetchPhase.about : PrefetchPhase → Option String
  | .scanning [] => none
  | .scanning (stored :: _) => stored.elementId
  | phase => phase.attempt

namespace PrefetchLoop

variable (env : Env) (bodyPrefetchLimit : Nat)

def world (loop : PrefetchLoop) : World := loop.prefetcher.world

def now (loop : PrefetchLoop) : Nat := env.now loop.world.tick

/-- One piece of `prefetch_loop`. When both the timer and the store are ready, `byTimer` says
which branch of the `select!` is taken. -/
def advance (byTimer : Bool) (loop : PrefetchLoop) : PrefetchLoop :=
  match loop.phase with
  | .subscribing => { loop with seen := loop.world.store.generation, phase := .starting }
  | .starting =>
    if loop.shutdown then { loop with phase := .stopped }
    else { loop with phase := .sweeping loop.world.store.folderList, dealtAt := .empty }
  | .sweeping [] =>
    let timer := (nextAttachmentRetry loop.prefetcher.history (loop.now env)).map (loop.now env + ·)
    { loop with phase := .waiting timer }
  | .sweeping (folder :: rest) =>
    if loop.shutdown then { loop with phase := .stopped }
    else
      let window := prefetchWindow (loop.world.store.getFolder folder.id) bodyPrefetchLimit
      { loop with phase := .passing folder (.scanning window) rest }
  | .passing folder pass rest =>
    match prefetchStep env folder loop.prefetcher pass with
    | none => { loop with phase := .sweeping rest }
    | some (next, later) =>
      { loop with
        prefetcher := next
        phase := .passing folder later rest
        dealtAt := match pass.about with
          | none => loop.dealtAt
          | some elementId => loop.dealtAt.set elementId (env.now next.world.tick) }
  | .waiting timer =>
    let fires := timer.any (· ≤ loop.now env)
    if loop.shutdown then { loop with phase := .stopped }
    else if byTimer && fires then { loop with phase := .starting }
    else if loop.seen ≠ loop.world.store.generation then
      { loop with seen := loop.world.store.generation, phase := .starting }
    else if fires then { loop with phase := .starting }
    else loop
  | .stopped => loop

end PrefetchLoop

/-- What moves: the loop, another task on one of the stores, the clock, or the shutdown. -/
inductive LoopLabel where
  | loop (byTimer : Bool)
  | store (op : MailOp)
  | disk (localStore : LocalStore)
  | elapse (ticks : Nat)
  | shutdown

namespace PrefetchLoop

variable (env : Env) (bodyPrefetchLimit : Nat)

/-- The stores and the clock as another task leaves them. -/
def setWorld (world : World) (loop : PrefetchLoop) : PrefetchLoop :=
  { loop with prefetcher := { loop.prefetcher with world := world } }

def step (loop : PrefetchLoop) : LoopLabel → PrefetchLoop
  | .loop byTimer => loop.advance env bodyPrefetchLimit byTimer
  | .store op => loop.setWorld (loop.world.mapStore op.apply)
  | .disk localStore => loop.setWorld { loop.world with localStore := localStore }
  | .elapse ticks => loop.setWorld { loop.world with tick := loop.world.tick + ticks }
  | .shutdown => { loop with shutdown := true }

/-- Before the loop runs, in a world whose store is new. -/
def start (localStore : LocalStore) : PrefetchLoop where
  prefetcher := ⟨⟨.new, localStore, .empty, 0⟩, .empty⟩
  phase := .subscribing
  seen := 0
  shutdown := false
  dealtAt := .empty

def run (localStore : LocalStore) (labels : List LoopLabel) : PrefetchLoop :=
  labels.foldl (step env bodyPrefetchLimit) (start localStore)

/-- The loop is about to wait for a change of the store only: the sweep is over, no timer is
armed, and no change that happened meanwhile ends the wait at once. -/
structure GoesToWait (loop : PrefetchLoop) : Prop where
  swept : loop.phase = .sweeping []
  unarmed : nextAttachmentRetry loop.prefetcher.history (loop.now env) = none
  unchanged : loop.seen = loop.world.store.generation

/-- A mail in the window of a listed folder still lacks its body and has an entry in the
retry history. -/
structure AwaitsRetry (loop : PrefetchLoop) (folder : FolderInfo) (stored : StoredMail)
    (elementId : String) (retry : AttachmentRetry) : Prop where
  listed : folder ∈ loop.world.store.folderList
  inWindow : stored ∈ prefetchWindow (loop.world.store.getFolder folder.id) bodyPrefetchLimit
  identified : stored.elementId = some elementId
  lacks : ¬ (stored.bodyLoaded || loop.world.localStore.hasEml elementId) = true
  entry : loop.prefetcher.history.get? elementId = some retry

end PrefetchLoop

end TutaBridge.Sync
