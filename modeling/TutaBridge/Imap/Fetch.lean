import TutaBridge.Sync.Prefetch

/-!
# Fetching a body on demand

A client that opens a message gets its body from the cache, from the disk, or
from the server. `fetchBody` is that part of `cmd_fetch` for one message, and
`fetchStep` the same cut at its awaits and its calls to the stores. Unlike the
prefetch, a fetch does not look whether the folder still has the mail.
-/

namespace TutaBridge.Imap

open TutaBridge.Std Tuta Store Bridge Sync

/-- What the session knows of the message when the FETCH starts: the selected
folder and the entry of its own list. -/
structure FetchTarget where
  folderId : String
  elementId : String
  mail : Mail
  bodyLoaded : Bool
deriving DecidableEq, Repr

/-- `BodyCache::cached` on the shared cache. -/
def lookUp (elementId : String) (world : World) : Option BodyEntry × World :=
  let hit := world.store.bodies.cached elementId
  (hit.1, world.mapStore fun store => { store with bodies := hit.2 })

/-- `BodyCache::insert` on the shared cache, of a body read from disk. -/
def cacheRead (elementId rfc2822 : String) (world : World) : World :=
  world.mapStore fun store => { store with bodies := store.bodies.insert elementId ⟨none, rfc2822⟩ }

/-- The disk half of `BodyCache::get`. -/
def readBody (env : Env) (elementId : String) (world : World) : Option String × World :=
  if world.store.bodies.diskFallback then
    let read := world.call env fun store => (store.readEml elementId, store)
    match read.1 with
    | .ok found => (found, read.2)
    | .error _ => (none, read.2)
  else (none, world)

/-- `MailStore::get_body`: the cache, else the disk. -/
def getBody (env : Env) (elementId : String) (world : World) : Option BodyEntry × World :=
  let hit := lookUp elementId world
  match hit.1 with
  | some body => (some body, hit.2)
  | none =>
    let read := readBody env elementId hit.2
    match read.1 with
    | none => (none, read.2)
    | some rfc2822 => lookUp elementId (cacheRead elementId rfc2822 read.2)

/-- `persist_body` and `update_complete_mail`. The body is not indexed. -/
def keepFetched (env : Env) (target : FetchTarget) (body : BodyEntry) (world : World) : World :=
  (writeBody env target.elementId body.rfc2822 world).mapStore
    (·.updateCompleteMail target.folderId target.elementId body)

/-- Download the body; `none` when a request failed, after which the mail cools
down. -/
def downloadBody (env : Env) (target : FetchTarget) (world : World) : Option BodyEntry × World :=
  let failed := fun world : World =>
    world.mapStore (·.markBodyFetchFailed target.elementId (env.now world.tick))
  let details := world.ask fun tick => env.backend.loadMailDetails tick target.mail
  match details.1 with
  | .error _ => (none, failed details.2)
  | .ok found =>
    let attachments := details.2.ask fun tick => env.backend.loadAttachments tick target.mail
    match attachments.1 with
    | .error _ => (none, failed attachments.2)
    | .ok files =>
      (some ⟨found, env.rendering.mailToRfc2822 target.mail found files⟩, attachments.2)

/-- The body a FETCH answers with, and `none` for a `NO`. -/
def fetchBody (env : Env) (target : FetchTarget) (world : World) : Option (Option BodyEntry) × World :=
  let answer := fun world : World =>
    let shown := getBody env target.elementId world
    (some shown.1, shown.2)
  if target.bodyLoaded then answer world
  else
    let available := getBody env target.elementId world
    match available.1 with
    | some _ => answer available.2
    | none =>
      let cooldown := available.2.store.bodyFetchOnCooldown target.elementId (env.now available.2.tick)
      let checked := { available.2 with store := cooldown.2 }
      if cooldown.1 then (none, checked)
      else
        let downloaded := downloadBody env target checked
        match downloaded.1 with
        | none => (none, downloaded.2)
        | some body => answer (keepFetched env target body downloaded.2)

/-! ## The fetch in steps -/

/-- Where a fetch is. `available` and `answering` are its two calls of
`get_body`. -/
inductive FetchPhase where
  | available
  /-- The cache missed and the body file is being read. -/
  | reading
  | caching (rfc2822 : String)
  /-- The body was put into the cache and is looked up there. -/
  | confirming
  | deciding
  /-- The request for the details is on its way. -/
  | requesting
  /-- The request for the attachments is on its way. -/
  | attaching (details : Option MailDetails)
  | writing (body : BodyEntry)
  | marking (body : BodyEntry)
  | completing (body : BodyEntry)
  | publishing (body : BodyEntry)
  | answering
  | rereading
  | recaching (rfc2822 : String)
  | touching
  | finished

/-- Where a fetch starts. -/
def FetchTarget.start (target : FetchTarget) : FetchPhase :=
  if target.bodyLoaded then .answering else .available

/-- The next piece of a fetch, none at its end. -/
def fetchStep (env : Env) (target : FetchTarget) (world : World) : FetchPhase → Option (World × FetchPhase)
  | .available =>
    let hit := lookUp target.elementId world
    match hit.1 with
    | some _ => some (hit.2, .answering)
    | none => some (hit.2, .reading)
  | .reading =>
    let read := readBody env target.elementId world
    match read.1 with
    | some rfc2822 => some (read.2, .caching rfc2822)
    | none => some (read.2, .deciding)
  | .caching rfc2822 => some (cacheRead target.elementId rfc2822 world, .confirming)
  | .confirming =>
    let hit := lookUp target.elementId world
    match hit.1 with
    | some _ => some (hit.2, .answering)
    | none => some (hit.2, .deciding)
  | .deciding =>
    let cooldown := world.store.bodyFetchOnCooldown target.elementId (env.now world.tick)
    if cooldown.1 then some ({ world with store := cooldown.2 }, .finished)
    else some ({ world with store := cooldown.2 }, .requesting)
  | .requesting =>
    let details := world.ask fun tick => env.backend.loadMailDetails tick target.mail
    match details.1 with
    | .error _ =>
      some (details.2.mapStore (·.markBodyFetchFailed target.elementId (env.now details.2.tick)), .finished)
    | .ok found => some (details.2, .attaching found)
  | .attaching details =>
    let attachments := world.ask fun tick => env.backend.loadAttachments tick target.mail
    match attachments.1 with
    | .error _ =>
      some (attachments.2.mapStore
        (·.markBodyFetchFailed target.elementId (env.now attachments.2.tick)), .finished)
    | .ok files =>
      some (attachments.2, .writing ⟨details, env.rendering.mailToRfc2822 target.mail details files⟩)
  | .writing body =>
    let written := world.call env fun store => ((), store.writeEml target.elementId body.rfc2822)
    match written.1 with
    | .error _ => some (written.2, .completing body)
    | .ok _ => some (written.2, .marking body)
  | .marking body => some (world.write env (·.markHasDetails target.elementId), .completing body)
  | .completing body =>
    some (world.mapStore (·.markComplete target.folderId target.elementId), .publishing body)
  | .publishing body =>
    some (world.mapStore (·.publishBody target.elementId body), .answering)
  | .answering =>
    let hit := lookUp target.elementId world
    match hit.1 with
    | some _ => some (hit.2, .finished)
    | none => some (hit.2, .rereading)
  | .rereading =>
    let read := readBody env target.elementId world
    match read.1 with
    | some rfc2822 => some (read.2, .recaching rfc2822)
    | none => some (read.2, .finished)
  | .recaching rfc2822 => some (cacheRead target.elementId rfc2822 world, .touching)
  | .touching => some ((lookUp target.elementId world).2, .finished)
  | .finished => none

/-- The fetch has a body in its hands. -/
def FetchPhase.carries : FetchPhase → Bool
  | .caching _ | .writing _ | .marking _ | .completing _ | .publishing _ | .recaching _ => true
  | _ => false

/-- The body a fetch has in its hands. -/
def FetchPhase.hand : FetchPhase → Option String
  | .caching rfc2822 | .recaching rfc2822 => some rfc2822
  | .writing body | .marking body | .completing body | .publishing body => some body.rfc2822
  | _ => none

/-- The fetch is about to get the body, from the disk or from the server. -/
def FetchPhase.obtains (env : Env) (target : FetchTarget) (world : World) : FetchPhase → Bool
  | .reading | .rereading => (readBody env target.elementId world).1.isSome
  | .attaching _ => (env.backend.loadAttachments world.tick target.mail).isOk
  | _ => false

/-- The body the next step of a fetch answers with. -/
def FetchPhase.answer (target : FetchTarget) (world : World) : FetchPhase → Option BodyEntry
  | .answering | .touching => (lookUp target.elementId world).1
  | _ => none

theorem FetchPhase.carries_eq (phase : FetchPhase) : phase.carries = phase.hand.isSome := by
  cases phase <;> rfl

/-! ## What a step of a fetch does to the stores -/

/-- Everything a step of a fetch can do to the stores. -/
inductive FetchMove (env : Env) (target : FetchTarget) (world : World) :
    FetchPhase → World → FetchPhase → Prop where
  | looksUp {phase later : FetchPhase} (empty : phase.hand = none) (stillEmpty : later.hand = none) :
      FetchMove env target world phase (lookUp target.elementId world).2 later
  | asks {phase later : FetchPhase} {next : World} (empty : phase.hand = none)
      (stillEmpty : later.hand = none) (sameDisk : next.localStore = world.localStore)
      (sameBodies : next.store.bodies = world.store.bodies) :
      FetchMove env target world phase next later
  | reads {phase later : FetchPhase} (isRead : phase = .reading ∨ phase = .rereading)
      (gets : later.hand = (readBody env target.elementId world).1) :
      FetchMove env target world phase (readBody env target.elementId world).2 later
  | caches {phase later : FetchPhase} {rfc2822 : String}
      (isCaching : phase = .caching rfc2822 ∨ phase = .recaching rfc2822)
      (empty : later.hand = none) :
      FetchMove env target world phase (cacheRead target.elementId rfc2822 world) later
  | obtains {details : Option MailDetails} {files : List (TutanotaFile × List UInt8)}
      (answered : env.backend.loadAttachments world.tick target.mail = .ok files) :
      FetchMove env target world (.attaching details)
        (world.ask fun tick => env.backend.loadAttachments tick target.mail).2
        (.writing ⟨details, env.rendering.mailToRfc2822 target.mail details files⟩)
  | writes {body : BodyEntry} {later : FetchPhase}
      (goesOn : later = .marking body ∨ later = .completing body) :
      FetchMove env target world (.writing body)
        (world.call env fun store => ((), store.writeEml target.elementId body.rfc2822)).2 later
  | marks {body : BodyEntry} :
      FetchMove env target world (.marking body)
        (world.write env (·.markHasDetails target.elementId)) (.completing body)
  | completes {body : BodyEntry} :
      FetchMove env target world (.completing body)
        (world.mapStore (·.markComplete target.folderId target.elementId)) (.publishing body)
  | publishes {body : BodyEntry} :
      FetchMove env target world (.publishing body)
        (world.mapStore (·.publishBody target.elementId body)) .answering

theorem fetchMove {env : Env} {target : FetchTarget} {world next : World} {phase later : FetchPhase}
    (stepped : fetchStep env target world phase = some (next, later)) :
    FetchMove env target world phase next later := by
  cases phase with
  | available | confirming | answering =>
    simp only [fetchStep] at stepped
    split at stepped <;> cases stepped <;> exact .looksUp rfl rfl
  | reading =>
    simp only [fetchStep] at stepped
    split at stepped
    next found =>
      cases stepped
      exact .reads (.inl rfl) found.symm
    next missing =>
      cases stepped
      exact .reads (.inl rfl) missing.symm
  | rereading =>
    simp only [fetchStep] at stepped
    split at stepped
    next found =>
      cases stepped
      exact .reads (.inr rfl) found.symm
    next missing =>
      cases stepped
      exact .reads (.inr rfl) missing.symm
  | caching rfc2822 =>
    cases stepped
    exact .caches (.inl rfl) rfl
  | recaching rfc2822 =>
    cases stepped
    exact .caches (.inr rfl) rfl
  | deciding =>
    simp only [fetchStep] at stepped
    split at stepped <;> cases stepped <;>
      exact .asks rfl rfl rfl (MailStore.bodies_bodyFetchOnCooldown _ _ _)
  | requesting =>
    simp only [fetchStep] at stepped
    split at stepped <;> cases stepped <;> exact .asks rfl rfl rfl rfl
  | attaching details =>
    simp only [fetchStep] at stepped
    split at stepped
    next failed =>
      cases stepped
      exact .asks rfl rfl rfl rfl
    next files answered =>
      cases stepped
      exact .obtains answered
  | writing body =>
    simp only [fetchStep] at stepped
    split at stepped <;> cases stepped
    · exact .writes (.inr rfl)
    · exact .writes (.inl rfl)
  | marking body =>
    cases stepped
    exact .marks
  | completing body =>
    cases stepped
    exact .completes
  | publishing body =>
    cases stepped
    exact .publishes
  | touching =>
    cases stepped
    exact .looksUp rfl rfl
  | finished => simp [fetchStep] at stepped

/-! ## A fetch with nothing in between -/

section Alone

variable {env : Env} {target : FetchTarget}

/-- The fetch gets from one point to the other by its own steps. -/
def Fetches (env : Env) (target : FetchTarget) : World × FetchPhase → World × FetchPhase → Prop :=
  Relation.ReflTransGen fun task next => fetchStep env target task.1 task.2 = some next

/-- The three ways `getBody` can go. -/
theorem getBody_hit {elementId : String} {body : BodyEntry} {world : World}
    (hit : (lookUp elementId world).1 = some body) :
    getBody env elementId world = (some body, (lookUp elementId world).2) := by
  simp only [getBody, hit]

theorem getBody_missing {elementId : String} {world : World} (miss : (lookUp elementId world).1 = none)
    (unread : (readBody env elementId (lookUp elementId world).2).1 = none) :
    getBody env elementId world = (none, (readBody env elementId (lookUp elementId world).2).2) := by
  simp only [getBody, miss, unread]

theorem getBody_read {elementId rfc2822 : String} {world : World} (miss : (lookUp elementId world).1 = none)
    (read : (readBody env elementId (lookUp elementId world).2).1 = some rfc2822) : getBody env elementId world =
      lookUp elementId (cacheRead elementId rfc2822 (readBody env elementId (lookUp elementId world).2).2) := by
  simp only [getBody, miss, read]

theorem fetches_answering (world : World) :
    Fetches env target (world, .answering) ((getBody env target.elementId world).2, .finished) := by
  cases hit : (lookUp target.elementId world).1 with
  | some body =>
    rw [getBody_hit hit]
    exact .head (by simp only [fetchStep, hit]) .refl
  | none =>
    cases read : (readBody env target.elementId (lookUp target.elementId world).2).1 with
    | none =>
      rw [getBody_missing hit read]
      exact .head (by simp only [fetchStep, hit]; rfl) (.head (by simp only [fetchStep, read]) .refl)
    | some rfc2822 =>
      rw [getBody_read hit read]
      exact .head (by simp only [fetchStep, hit]; rfl)
        (.head (by simp only [fetchStep, read]; rfl) (.head rfl (.head rfl .refl)))

/-- The first lookup ends in the answer, or in the decision what to do without a
body. -/
theorem fetches_available (world : World) : Fetches env target (world, .available)
      ((getBody env target.elementId world).2,
        if (getBody env target.elementId world).1.isSome then .answering else .deciding) := by
  cases hit : (lookUp target.elementId world).1 with
  | some body =>
    rw [getBody_hit hit]
    exact .head (by simp only [fetchStep, hit]; rfl) .refl
  | none =>
    cases read : (readBody env target.elementId (lookUp target.elementId world).2).1 with
    | none =>
      rw [getBody_missing hit read]
      exact .head (by simp only [fetchStep, hit]; rfl) (.head (by simp only [fetchStep, read]; rfl) .refl)
    | some rfc2822 =>
      rw [getBody_read hit read]
      refine .head (by simp only [fetchStep, hit]; rfl)
        (.head (by simp only [fetchStep, read]; rfl) (.head rfl ?_))
      cases again : (lookUp target.elementId (cacheRead target.elementId rfc2822
          (readBody env target.elementId (lookUp target.elementId world).2).2)).1 with
      | some body => exact .head (by simp only [fetchStep, again]; rfl) .refl
      | none => exact .head (by simp only [fetchStep, again]; rfl) .refl

theorem fetches_writing (body : BodyEntry) (world : World) :
    Fetches env target (world, .writing body) (keepFetched env target body world, .answering) := by
  unfold keepFetched writeBody World.writeAll
  dsimp only
  cases written : (world.call env fun store =>
      ((), store.writeEml target.elementId body.rfc2822)).1 with
  | error fault => exact .head (by simp only [fetchStep, written]; rfl) (.head rfl (.head rfl .refl))
  | ok done =>
    refine .head (by simp only [fetchStep, written]; rfl) (.head rfl ?_)
    rw [World.writeAll_singleton]
    exact .head rfl (.head rfl .refl)

/-- The download ends in the write, or in a cooldown. -/
theorem fetches_requesting (world : World) : Fetches env target (world, .requesting)
    ((downloadBody env target world).2,
        (downloadBody env target world).1.elim .finished .writing) := by
  unfold downloadBody
  dsimp only
  split
  next failed => exact .head (by simp only [fetchStep, failed]; rfl) .refl
  next found answered =>
    refine .head (by simp only [fetchStep, answered]; rfl) ?_
    split
    next failed => exact .head (by simp only [fetchStep, failed]; rfl) .refl
    next files attached => exact .head (by simp only [fetchStep, attached]; rfl) .refl

/-- A fetch that no other task interrupts is `fetchBody`. -/
theorem fetches_fetchBody (world : World) :
    Fetches env target (world, target.start) ((fetchBody env target world).2, .finished) := by
  unfold fetchBody FetchTarget.start
  dsimp only
  split
  · exact fetches_answering world
  · refine (fetches_available world).trans ?_
    cases available : (getBody env target.elementId world).1 with
    | some body => exact fetches_answering _
    | none =>
      simp only [Option.isSome_none, Bool.false_eq_true, if_false]
      split
      next cools => exact .head (by simp only [fetchStep, cools]; rfl) .refl
      next due =>
        refine .head (by simp only [fetchStep, due]; rfl) ((fetches_requesting _).trans ?_)
        split
        next failed =>
          rw [failed]
          exact .refl
        next body downloaded =>
          rw [downloaded]
          exact (fetches_writing body _).trans (fetches_answering _)

end Alone

end TutaBridge.Imap
