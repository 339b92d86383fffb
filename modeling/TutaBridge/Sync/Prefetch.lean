import TutaBridge.Bridge.World

/-!
# The body prefetch

`prefetchDetails` walks the newest mails of a folder and downloads, writes and
indexes each body that is not on disk yet. `prefetchStep` is the same pass cut
at its awaits and its calls to the stores, for the results about what other
tasks do in between.
-/

namespace TutaBridge.Sync

open TutaBridge.Std Tuta Store Bridge

/-- `ATTACHMENT_RETRY_MIN`, in milliseconds. -/
def attachmentRetryMin : Nat := 60 * 1000

/-- `ATTACHMENT_RETRY_MAX`, in milliseconds. -/
def attachmentRetryMax : Nat := 3600 * 1000

/-- When a mail whose download failed is tried again. `failures` is a `u32`. -/
structure AttachmentRetry where
  failures : Nat
  nextAttempt : Nat
deriving DecidableEq, Repr

def AttachmentRetry.afterFailure (previous : Option AttachmentRetry) (retryable : Bool) (now : Nat) :
    AttachmentRetry :=
  let failures := match previous with
    | none => 1
    | some retry => min (retry.failures + 1) (2 ^ 32 - 1)
  let delay :=
    if retryable then min (attachmentRetryMin * 2 ^ min (failures - 1) 6) attachmentRetryMax
    else attachmentRetryMax
  ⟨failures, now + delay⟩

def isTransientAttachmentError : AttachmentError → Bool
  | .contract _ => false
  | .indeterminate _ => true
  | .transport .restClient => true
  | .transport (.serverResponseError source) =>
    match source with
    | .connectionError | .requestTimeoutError | .tooManyRequestsError | .internalServerError
    | .badGatewayError | .serviceUnavailableError => true
    | .other _ => false
  | .transport (.internalSdkError _) => true

/-- The newest `limit` mails of a folder, or all of them when `limit` is 0. -/
def prefetchWindow (mails : List StoredMail) (limit : Nat) : List StoredMail :=
  let sorted := mails.insertionSort fun left right => right.mail.receivedDate ≤ left.mail.receivedDate
  if limit ≠ 0 then sorted.take limit else sorted

/-- What the passes share: the stores and `attachment_retry_history`. -/
structure Prefetcher where
  world : World
  history : Dict String AttachmentRetry
deriving DecidableEq

namespace Prefetcher

/-- Note a failed download. -/
def backOff (env : Env) (elementId : String) (retryable : Bool) (state : Prefetcher) : Prefetcher :=
  { state with
    history := state.history.set elementId
      (.afterFailure (state.history.get? elementId) retryable (env.now state.world.tick)) }

/-- The mail is throttled after a failed download. -/
def throttled (env : Env) (elementId : String) (state : Prefetcher) : Bool :=
  (state.history.get? elementId).any fun last => env.now state.world.tick < last.nextAttempt

end Prefetcher

/-- The closure under `retry`: the mail is looked up again before each attempt,
and one that left the folder is `none`. -/
def loadCurrentDetails (env : Env) (folderId elementId : String) : (retries : Nat) → World →
    Except String (Option (Mail × Option MailDetails)) × World
  | retries, world =>
    match world.store.mailInFolder folderId elementId with
    | none => (.ok none, world)
    | some current =>
      let answer := world.ask fun tick => env.backend.loadMailDetails tick current.mail
      match answer.1, retries with
      | .ok details, _ => (.ok (some (current.mail, details)), answer.2)
      | .error error, 0 => (.error error, answer.2)
      | .error _, retries + 1 => loadCurrentDetails env folderId elementId retries answer.2

/-- Write the body file and, when that worked, the flag of the row. -/
def writeBody (env : Env) (elementId rfc2822 : String) (world : World) : World :=
  world.writeAll env [(·.writeEml elementId rfc2822), (·.markHasDetails elementId)]

/-- Index the body of a mail that has details. -/
def indexDetails (env : Env) (elementId : String) (details : Option MailDetails) (world : World) :
    World :=
  match details with
  | none => world
  | some details =>
    world.write env (·.indexBody elementId (env.rendering.stripHtml details.bodyHtml))

/-- What a pass does with a complete message. -/
def keepComplete (env : Env) (folderId elementId : String) (body : BodyEntry) (world : World) :
    World :=
  (indexDetails env elementId body.details (writeBody env elementId body.rfc2822 world)).mapStore
    (·.updateCompleteMail folderId elementId body)

/-- The loop body of `prefetch_details` after the checks. -/
def prefetchBody (env : Env) (folder : FolderInfo) (elementId : String) (state : Prefetcher) :
    Prefetcher :=
  let loaded := loadCurrentDetails env folder.id elementId maxRetries state.world
  match loaded.1 with
  | .ok none => { state with world := loaded.2 }
  | .error _ => { state with world := loaded.2 }.backOff env elementId true
  | .ok (some (mail, details)) =>
    let attachments := loaded.2.ask fun tick => env.backend.loadAttachments tick mail
    match attachments.1 with
    | .error error =>
      { state with world := attachments.2 }.backOff env elementId (isTransientAttachmentError error)
    | .ok files =>
      { state with
        world := keepComplete env folder.id elementId
          ⟨details, env.rendering.mailToRfc2822 mail details files⟩ attachments.2
        history := state.history.erase elementId }

/-- The loop body of `prefetch_details`. -/
def prefetchMail (env : Env) (folder : FolderInfo) (state : Prefetcher) (stored : StoredMail) :
    Prefetcher :=
  match stored.elementId with
  | none => state
  | some elementId =>
    if stored.bodyLoaded || state.world.localStore.hasEml elementId then
      { state with history := state.history.erase elementId }
    else if state.throttled env elementId then state
    else prefetchBody env folder elementId state

def prefetchDetails (env : Env) (folder : FolderInfo) (bodyPrefetchLimit : Nat)
    (state : Prefetcher) : Prefetcher :=
  (prefetchWindow (state.world.store.getFolder folder.id) bodyPrefetchLimit).foldl
    (prefetchMail env folder) state

/-! ## The pass in steps -/

/-- Where a pass is. `rest` is the window that is still to be walked. -/
inductive PrefetchPhase where
  | scanning (rest : List StoredMail)
  /-- Before `mail_in_folder`. -/
  | checking (elementId : String) (retries : Nat) (rest : List StoredMail)
  /-- The request for the details is on its way. -/
  | requesting (elementId : String) (mail : Mail) (retries : Nat) (rest : List StoredMail)
  /-- The request for the attachments is on its way. -/
  | attaching (elementId : String) (mail : Mail) (details : Option MailDetails)
      (rest : List StoredMail)
  | writing (elementId : String) (body : BodyEntry) (rest : List StoredMail)
  | marking (elementId : String) (body : BodyEntry) (rest : List StoredMail)
  | indexing (elementId : String) (body : BodyEntry) (rest : List StoredMail)
  | completing (elementId : String) (body : BodyEntry) (rest : List StoredMail)
  | publishing (elementId : String) (body : BodyEntry) (rest : List StoredMail)

/-- The next piece of `prefetch_details`, none at the end of the pass. -/
def prefetchStep (env : Env) (folder : FolderInfo) (state : Prefetcher) :
    PrefetchPhase → Option (Prefetcher × PrefetchPhase)
  | .scanning [] => none
  | .scanning (stored :: rest) =>
    match stored.elementId with
    | none => some (state, .scanning rest)
    | some elementId =>
      if stored.bodyLoaded || state.world.localStore.hasEml elementId then
        some ({ state with history := state.history.erase elementId }, .scanning rest)
      else if state.throttled env elementId then some (state, .scanning rest)
      else some (state, .checking elementId maxRetries rest)
  | .checking elementId retries rest =>
    match state.world.store.mailInFolder folder.id elementId with
    | none => some (state, .scanning rest)
    | some current => some (state, .requesting elementId current.mail retries rest)
  | .requesting elementId mail retries rest =>
    let answer := state.world.ask fun tick => env.backend.loadMailDetails tick mail
    match answer.1, retries with
    | .ok details, _ =>
      some ({ state with world := answer.2 }, .attaching elementId mail details rest)
    | .error _, 0 =>
      some ({ state with world := answer.2 }.backOff env elementId true, .scanning rest)
    | .error _, retries + 1 =>
      some ({ state with world := answer.2 }, .checking elementId retries rest)
  | .attaching elementId mail details rest =>
    let answer := state.world.ask fun tick => env.backend.loadAttachments tick mail
    match answer.1 with
    | .error error =>
      some ({ state with world := answer.2 }.backOff env elementId
        (isTransientAttachmentError error), .scanning rest)
    | .ok files =>
      some ({ state with world := answer.2 },
        .writing elementId ⟨details, env.rendering.mailToRfc2822 mail details files⟩ rest)
  | .writing elementId body rest =>
    let written := state.world.call env fun store => ((), store.writeEml elementId body.rfc2822)
    match written.1 with
    | .error _ => some ({ state with world := written.2 }, .indexing elementId body rest)
    | .ok _ => some ({ state with world := written.2 }, .marking elementId body rest)
  | .marking elementId body rest =>
    some ({ state with world := state.world.write env (·.markHasDetails elementId) },
      .indexing elementId body rest)
  | .indexing elementId body rest =>
    some ({ state with world := indexDetails env elementId body.details state.world },
      .completing elementId body rest)
  | .completing elementId body rest =>
    some ({ state with world := state.world.mapStore (·.markComplete folder.id elementId) },
      .publishing elementId body rest)
  | .publishing elementId body rest =>
    some ({ state with
      world := state.world.mapStore (·.publishBody elementId body)
      history := state.history.erase elementId }, .scanning rest)

/-- The mail whose body a pass has in its hands. -/
def PrefetchPhase.carried : PrefetchPhase → Option String
  | .writing elementId _ _ | .marking elementId _ _ | .indexing elementId _ _
  | .completing elementId _ _ | .publishing elementId _ _ => some elementId
  | _ => none

/-- The body a pass has in its hands, with its mail. -/
def PrefetchPhase.hand : PrefetchPhase → Option (String × String)
  | .writing elementId body _ | .marking elementId body _ | .indexing elementId body _
  | .completing elementId body _ | .publishing elementId body _ => some (elementId, body.rfc2822)
  | _ => none

/-- The pass is about to get the mail's body. -/
def PrefetchPhase.obtains (env : Env) (elementId : String) (world : World) : PrefetchPhase → Bool
  | .attaching loaded mail _ _ =>
    loaded = elementId && (env.backend.loadAttachments world.tick mail).isOk
  | _ => false

theorem PrefetchPhase.carried_eq (phase : PrefetchPhase) : phase.carried = phase.hand.map Prod.fst := by
  cases phase <;> rfl

/-! ## What a step of a pass does to the stores -/

/-- Everything a step of a pass can do: it looks and asks while its hands are empty, gets a
body, and brings it to the stores one after the other. -/
inductive PrefetchMove (env : Env) (folder : FolderInfo) (world : World) :
    PrefetchPhase → World → PrefetchPhase → Prop where
  | looks {phase later : PrefetchPhase} {next : World} (empty : phase.hand = none)
      (stillEmpty : later.hand = none) (sameDisk : next.localStore = world.localStore)
      (sameStore : next.store = world.store) : PrefetchMove env folder world phase next later
  | obtains {elementId : String} {mail : Mail} {details : Option MailDetails}
      {rest : List StoredMail} {files : List (TutanotaFile × List UInt8)}
      (answered : env.backend.loadAttachments world.tick mail = .ok files) :
      PrefetchMove env folder world (.attaching elementId mail details rest)
        (world.ask fun tick => env.backend.loadAttachments tick mail).2
        (.writing elementId ⟨details, env.rendering.mailToRfc2822 mail details files⟩ rest)
  | writes {elementId : String} {body : BodyEntry} {rest : List StoredMail} {later : PrefetchPhase}
      (goesOn : later = .marking elementId body rest ∨ later = .indexing elementId body rest) :
      PrefetchMove env folder world (.writing elementId body rest)
        (world.call env fun store => ((), store.writeEml elementId body.rfc2822)).2 later
  | marks {elementId : String} {body : BodyEntry} {rest : List StoredMail} :
      PrefetchMove env folder world (.marking elementId body rest)
        (world.write env (·.markHasDetails elementId)) (.indexing elementId body rest)
  | indexes {elementId : String} {body : BodyEntry} {rest : List StoredMail} :
      PrefetchMove env folder world (.indexing elementId body rest)
        (indexDetails env elementId body.details world) (.completing elementId body rest)
  | completes {elementId : String} {body : BodyEntry} {rest : List StoredMail} :
      PrefetchMove env folder world (.completing elementId body rest)
        (world.mapStore (·.markComplete folder.id elementId)) (.publishing elementId body rest)
  | publishes {elementId : String} {body : BodyEntry} {rest : List StoredMail} :
      PrefetchMove env folder world (.publishing elementId body rest)
        (world.mapStore (·.publishBody elementId body)) (.scanning rest)

theorem prefetchMove {env : Env} {folder : FolderInfo} {state next : Prefetcher} {phase later : PrefetchPhase}
    (stepped : prefetchStep env folder state phase = some (next, later)) :
    PrefetchMove env folder state.world phase next.world later := by
  cases phase with
  | scanning window =>
    cases window with
    | nil => simp [prefetchStep] at stepped
    | cons stored rest =>
      simp only [prefetchStep] at stepped
      split at stepped
      · cases stepped
        exact .looks rfl rfl rfl rfl
      · split at stepped
        · cases stepped
          exact .looks rfl rfl rfl rfl
        · split at stepped <;> cases stepped <;> exact .looks rfl rfl rfl rfl
  | checking asked retries rest =>
    simp only [prefetchStep] at stepped
    split at stepped <;> cases stepped <;> exact .looks rfl rfl rfl rfl
  | requesting asked mail retries rest =>
    simp only [prefetchStep] at stepped
    split at stepped <;> cases stepped <;> exact .looks rfl rfl rfl rfl
  | attaching asked mail details rest =>
    simp only [prefetchStep] at stepped
    split at stepped
    next failed =>
      cases stepped
      exact .looks rfl rfl rfl rfl
    next files answered =>
      cases stepped
      exact .obtains answered
  | writing written body rest =>
    simp only [prefetchStep] at stepped
    split at stepped <;> cases stepped
    · exact .writes (.inr rfl)
    · exact .writes (.inl rfl)
  | marking marked body rest =>
    cases stepped
    exact .marks
  | indexing indexed body rest =>
    cases stepped
    exact .indexes
  | completing completed body rest =>
    cases stepped
    exact .completes
  | publishing published body rest =>
    cases stepped
    exact .publishes

/-! ## A pass with nothing in between -/

section Alone

variable {env : Env} {folder : FolderInfo}

/-- The pass gets from one point to the other by its own steps. -/
def Passes (env : Env) (folder : FolderInfo) :
    Prefetcher × PrefetchPhase → Prefetcher × PrefetchPhase → Prop :=
  Relation.ReflTransGen fun task next => prefetchStep env folder task.1 task.2 = some next

/-- Where the attempts to load the details end. -/
def detailsEnd (env : Env) (elementId : String) (rest : List StoredMail) (state : Prefetcher)
    (loaded : Except String (Option (Mail × Option MailDetails)) × World) :
    Prefetcher × PrefetchPhase :=
  match loaded.1 with
  | .ok none => ({ state with world := loaded.2 }, .scanning rest)
  | .error _ => ({ state with world := loaded.2 }.backOff env elementId true, .scanning rest)
  | .ok (some (mail, details)) =>
    ({ state with world := loaded.2 }, .attaching elementId mail details rest)

theorem passes_requesting {elementId : String} {state : Prefetcher} {current : StoredMail}
    (found : state.world.store.mailInFolder folder.id elementId = some current) (retries : Nat)
    (rest : List StoredMail) : Passes env folder (state, .checking elementId retries rest)
      (state, .requesting elementId current.mail retries rest) :=
  .head (by simp only [prefetchStep, found]) .refl

theorem passes_checking (elementId : String) (rest : List StoredMail) (retries : Nat) (state : Prefetcher) :
    Passes env folder (state, .checking elementId retries rest) (detailsEnd env elementId rest state
        (loadCurrentDetails env folder.id elementId retries state.world)) := by
  have left : ∀ retries, state.world.store.mailInFolder folder.id elementId = none →
      Passes env folder (state, .checking elementId retries rest) (state, .scanning rest) :=
    fun retries missing => .head (by simp only [prefetchStep, missing]) .refl
  induction retries generalizing state with
  | zero =>
    unfold loadCurrentDetails
    cases found : state.world.store.mailInFolder folder.id elementId with
    | none => exact left 0 found
    | some current =>
      refine (passes_requesting found 0 rest).trans ?_
      cases answer : env.backend.loadMailDetails state.world.tick current.mail with
      | ok details => exact .head (by simp [prefetchStep, answer]; rfl) .refl
      | error message => exact .head (by simp [prefetchStep, answer]; rfl) .refl
  | succ retries ih =>
    unfold loadCurrentDetails
    cases found : state.world.store.mailInFolder folder.id elementId with
    | none => exact left (retries + 1) found
    | some current =>
      refine (passes_requesting found (retries + 1) rest).trans ?_
      cases answer : env.backend.loadMailDetails state.world.tick current.mail with
      | ok details => exact .head (by simp [prefetchStep, answer]; rfl) .refl
      | error message =>
        refine .head (by simp [prefetchStep, answer]; rfl) ?_
        simp only [World.ask_fst, answer]
        exact ih _ fun retries missing =>
          .head (by simp only [prefetchStep, missing]) .refl

/-- From the download on, a pass writes, marks, indexes and publishes. -/
theorem passes_writing (env : Env) (folder : FolderInfo) (elementId : String) (body : BodyEntry)
    (rest : List StoredMail) (state : Prefetcher) :
    Passes env folder (state, .writing elementId body rest) ({ state with
        world := keepComplete env folder.id elementId body state.world
        history := state.history.erase elementId }, .scanning rest) := by
  have indexed : ∀ world : World, Passes env folder
      ({ state with world := world }, .indexing elementId body rest)
      ({ state with
        world := (indexDetails env elementId body.details world).mapStore
          (·.updateCompleteMail folder.id elementId body)
        history := state.history.erase elementId }, .scanning rest) := by
    intro world
    exact .head rfl (.head rfl (.head rfl .refl))
  unfold keepComplete writeBody World.writeAll
  dsimp only
  cases written : (state.world.call env fun store =>
      ((), store.writeEml elementId body.rfc2822)).1 with
  | error fault =>
    exact .head (by simp only [prefetchStep, written]) (indexed _)
  | ok done =>
    refine .head (by simp only [prefetchStep, written]; rfl) (.head rfl ?_)
    rw [World.writeAll_singleton]
    exact indexed _

/-- One round of the loop. -/
theorem passes_prefetchMail (stored : StoredMail) (rest : List StoredMail) (state : Prefetcher) :
    Passes env folder (state, .scanning (stored :: rest)) (prefetchMail env folder state stored, .scanning rest) := by
  unfold prefetchMail
  cases identified : stored.elementId with
  | none => exact .head (by simp only [prefetchStep, identified]) .refl
  | some elementId =>
    dsimp only
    split
    next available =>
      exact .head (by simp only [prefetchStep, identified, available, if_true]) .refl
    next missing =>
      split
      next waits =>
        exact .head (by simp only [prefetchStep, identified, if_neg missing, if_pos waits]) .refl
      next due =>
        refine .head (by simp only [prefetchStep, identified, if_neg missing, if_neg due]; rfl) ?_
        refine (passes_checking elementId rest maxRetries state).trans ?_
        unfold prefetchBody detailsEnd
        dsimp only
        split
        · exact .refl
        · exact .refl
        next mail details _ =>
          split
          next failed => exact .head (by simp only [prefetchStep, failed]) .refl
          next files answered =>
            have written := passes_writing env folder elementId
              ⟨details, env.rendering.mailToRfc2822 mail details files⟩ rest
              { state with
                world := ((loadCurrentDetails env folder.id elementId maxRetries
                  state.world).2.ask fun tick => env.backend.loadAttachments tick mail).2 }
            exact .head (by simp only [prefetchStep, answered]) written

/-- A pass that no other task interrupts is `prefetchDetails`. -/
theorem passes_prefetchDetails (bodyPrefetchLimit : Nat) (state : Prefetcher) : Passes env folder
      (state, .scanning (prefetchWindow (state.world.store.getFolder folder.id) bodyPrefetchLimit))
      (prefetchDetails env folder bodyPrefetchLimit state, .scanning []) := by
  have loop : ∀ (window : List StoredMail) (state : Prefetcher), Passes env folder (state, .scanning window)
        (window.foldl (prefetchMail env folder) state, .scanning []) := by
    intro window
    induction window with
    | nil => exact fun state => .refl
    | cons stored rest ih =>
      exact fun state => (passes_prefetchMail stored rest state).trans (ih _)
  exact loop _ state

end Alone

end TutaBridge.Sync
