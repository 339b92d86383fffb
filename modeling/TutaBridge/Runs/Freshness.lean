import TutaBridge.Runs.SearchIndex
import TutaBridge.Runs.StoreOps
import TutaBridge.Std.Steps

/-!
# Bodies and the values they were rendered from

A body is rendered from one value of its mail and kept under the mail's id, in the
cache and on disk. The value changes when the mail does: a draft that is edited or
sent refers to other details. Nothing takes a body away then, so a client is shown
the current message only as long as no other value was applied since.
-/

namespace TutaBridge.Runs

open TutaBridge.Std Tuta Store Bridge Sync
open Events Imap

variable (env : Env) (readers : Readers)

/-! ## The readers -/

/-- A body that was rendered, with the value of the mail it was rendered from. -/
structure RenderedBody where
  elementId : String
  mail : Mail
  rfc2822 : String
deriving DecidableEq, Repr

/-- The stores, where the prefetch and each client's fetch are, and what the program does
not record: every body that was rendered, and the value last applied for each mail. -/
structure Readers where
  prefetcher : Prefetcher
  prefetch : Option (FolderInfo × PrefetchPhase)
  fetches : List (FetchTarget × FetchPhase)
  rendered : List RenderedBody
  applied : Dict String Mail

/-- Who moves. `fetch` is a step of the fetch at the position. -/
inductive ReaderLabel where
  | store (op : StoreOp)
  /-- A restart with a build of the schema version. -/
  | reopen (version : String)
  | beginPrefetch (folder : FolderInfo) (bodyPrefetchLimit : Nat)
  | prefetch
  | beginFetch (target : FetchTarget)
  | fetch (position : Nat)

namespace Readers

def world (readers : Readers) : World := readers.prefetcher.world

def setWorld (world : World) : Readers :=
  { readers with prefetcher := { readers.prefetcher with world := world } }

end Readers

/-- The body a download of the mail's attachments completes. -/
def completedBody (tick : Nat) (elementId : String) (mail : Mail)
    (details : Option MailDetails) : Option RenderedBody :=
  match env.backend.loadAttachments tick mail with
  | .error _ => none
  | .ok files => some ⟨elementId, mail, env.rendering.mailToRfc2822 mail details files⟩

/-- The body a step renders. -/
def rendersBody (readers : Readers) : ReaderLabel → Option RenderedBody
  | .store (.create _ mailEid pending) =>
    (inlineRfc2822 env.rendering pending).map fun eml => ⟨mailEid, pending.mail, eml⟩
  | .prefetch =>
    match readers.prefetch with
    | some (_, .attaching elementId mail details _) =>
      completedBody env readers.world.tick elementId mail details
    | _ => none
  | .fetch position =>
    match readers.fetches[position]? with
    | some (target, .attaching details) =>
      completedBody env readers.world.tick target.elementId target.mail details
    | _ => none
  | _ => none

/-- The values a step applies. -/
def appliesValues (readers : Readers) : ReaderLabel → List (String × Mail)
  | .store op => op.values env readers.world
  | _ => []

/-- The step on the stores and the tasks. -/
def moveReaders (readers : Readers) : ReaderLabel → Option Readers
  | .store op => some (readers.setWorld (op.apply env readers.world))
  | .reopen version =>
    some { readers with
      prefetcher := ⟨reopened version readers.world, .empty⟩
      prefetch := none
      fetches := [] }
  | .beginPrefetch folder bodyPrefetchLimit =>
    match readers.prefetch with
    | some _ => none
    | none =>
      some { readers with
        prefetch := some (folder, .scanning
          (prefetchWindow (readers.world.store.getFolder folder.id) bodyPrefetchLimit)) }
  | .prefetch =>
    match readers.prefetch with
    | none => none
    | some (folder, phase) =>
      match prefetchStep env folder readers.prefetcher phase with
      | none => some { readers with prefetch := none }
      | some (prefetcher, next) =>
        some { readers with prefetcher := prefetcher, prefetch := some (folder, next) }
  | .beginFetch target =>
    some { readers with fetches := readers.fetches ++ [(target, target.start)] }
  | .fetch position =>
    match readers.fetches[position]? with
    | none => none
    | some (target, phase) =>
      match fetchStep env target readers.world phase with
      | none => some { readers with fetches := readers.fetches.eraseIdx position }
      | some (world, next) =>
        some { readers.setWorld world with
          fetches := readers.fetches.set position (target, next) }

/-- The value last applied for each mail, after a step. -/
def appliedAfter (readers : Readers) (label : ReaderLabel) : Dict String Mail :=
  (appliesValues env readers label).foldl (fun applied value => applied.set value.1 value.2) readers.applied

def readerStep (readers : Readers) (label : ReaderLabel) : Option Readers :=
  (moveReaders env readers label).map fun next =>
    { next with
      rendered := (rendersBody env readers label).toList ++ readers.rendered
      applied := appliedAfter env readers label }

/-! ## Fresh bodies -/

/-- The bodies of a mail in the stores. -/
def storedTexts (world : World) (elementId : String) : List String :=
  (world.localStore.readEml elementId).toList ++
    ((world.store.bodies.peek elementId).map BodyEntry.rfc2822).toList

/-- The bodies of a mail on their way to the stores. -/
def Readers.carriedTexts (elementId : String) : List String :=
  (((readers.prefetch.bind fun task => task.2.hand).filter fun body =>
      body.1 = elementId).map Prod.snd).toList ++
    readers.fetches.filterMap fun task =>
      if task.1.elementId = elementId then task.2.hand else none

/-- The bodies of a mail, wherever they are. -/
def Readers.texts (elementId : String) : List String :=
  storedTexts readers.world elementId ++ readers.carriedTexts elementId

/-- The body was rendered from a value that refers to the same details and attachments
as the value last applied. -/
def Readers.Current (elementId rfc2822 : String) : Prop :=
  ∃ body ∈ readers.rendered, body.elementId = elementId ∧ body.rfc2822 = rfc2822 ∧
    (readers.applied.get? elementId).map Mail.references = some body.mail.references

instance (readers : Readers) (elementId rfc2822 : String) : Decidable (readers.Current elementId rfc2822) :=
  inferInstanceAs (Decidable (∃ body ∈ readers.rendered, _))

/-- Every body of the mail is current. -/
def Fresh (elementId : String) (readers : Readers) : Prop :=
  ∀ text ∈ readers.texts elementId, readers.Current elementId text

/-- A value that refers to other details or attachments is applied for the mail only while
there is no body of it. -/
def AppliesFresh (elementId : String) (readers : Readers) (label : ReaderLabel) : Prop :=
  ∀ value ∈ appliesValues env readers label, value.1 = elementId →
    (readers.applied.get? elementId).map Mail.references = some value.2.references ∨
      readers.texts elementId = []

/-- A body of the mail is rendered only from a value that refers to what the value last
applied refers to. -/
def RendersFresh (elementId : String) (readers : Readers) (label : ReaderLabel) : Prop :=
  ∀ body ∈ rendersBody env readers label, body.elementId = elementId →
    ((appliedAfter env readers label).get? elementId).map Mail.references = some body.mail.references

/-- The step keeps the bodies of the mail fresh. -/
def KeepsFresh (elementId : String) (readers : Readers) (label : ReaderLabel) : Prop :=
  AppliesFresh env elementId readers label ∧ RendersFresh env elementId readers label

instance (env : Env) (elementId : String) (readers : Readers) (label : ReaderLabel) :
    Decidable (AppliesFresh env elementId readers label) :=
  inferInstanceAs (Decidable (∀ value ∈ appliesValues env readers label, _))

instance (env : Env) (elementId : String) (readers : Readers) (label : ReaderLabel) :
    Decidable (RendersFresh env elementId readers label) :=
  inferInstanceAs (Decidable (∀ body ∈ rendersBody env readers label, _))

instance (env : Env) (elementId : String) (readers : Readers) (label : ReaderLabel) :
    Decidable (KeepsFresh env elementId readers label) :=
  inferInstanceAs (Decidable (_ ∧ _))

/-! ## What the tasks add -/

section Tasks

variable {env : Env} {elementId : String} {text : String}

theorem mem_storedTexts_iff {world : World} :
    text ∈ storedTexts world elementId ↔ world.localStore.readEml elementId = some text ∨
      ∃ body, world.store.bodies.peek elementId = some body ∧ body.rfc2822 = text := by
  simp [storedTexts]

theorem Spares.mem_storedTexts {before after : World} (spares : Spares elementId before after)
    (mem : text ∈ storedTexts after elementId) : text ∈ storedTexts before elementId := by
  rw [mem_storedTexts_iff] at mem ⊢
  rcases mem with inFile | ⟨body, inCache, isText⟩
  · exact .inl (spares.file text inFile)
  · exact .inr ⟨body, spares.cache body inCache, isText⟩

/-- Writing a body file adds its text. -/
theorem mem_storedTexts_writeEml {written rfc2822 : String} {world : World} (mem : text ∈ storedTexts
      (world.call env fun store => ((), store.writeEml written rfc2822)).2 elementId) :
    text ∈ storedTexts world elementId ∨ (written = elementId ∧ rfc2822 = text) := by
  rw [mem_storedTexts_iff] at mem
  rcases mem with inFile | inCache
  · unfold World.call at inFile
    split at inFile
    · exact .inl (mem_storedTexts_iff.mpr (.inl inFile))
    · simp only [LocalStore.readEml, LocalStore.writeEml, Dict.get?_set] at inFile
      split at inFile
      next same => exact .inr ⟨same.symm, Option.some.inj inFile⟩
      next => exact .inl (mem_storedTexts_iff.mpr (.inl inFile))
  · rw [World.call_store] at inCache
    exact .inl (mem_storedTexts_iff.mpr (.inr inCache))

/-- Caching a body adds its text. -/
theorem mem_storedTexts_insert {cached : String} {entry : BodyEntry} {change : MailStore → MailStore} (world : World)
    (inserts : (change world.store).bodies = world.store.bodies.insert cached entry)
    (mem : text ∈ storedTexts (world.mapStore change) elementId) :
    text ∈ storedTexts world elementId ∨ (cached = elementId ∧ entry.rfc2822 = text) := by
  rw [mem_storedTexts_iff, World.mapStore_localStore, World.mapStore_store, inserts] at mem
  rcases mem with inFile | ⟨body, inCache, isText⟩
  · exact .inl (mem_storedTexts_iff.mpr (.inl inFile))
  · obtain ⟨same, rfl⟩ | held := BodyCache.peek_insert_imp inCache
    · exact .inr ⟨same.symm, isText⟩
    · exact .inl (mem_storedTexts_iff.mpr (.inr ⟨body, held, isText⟩))

theorem mem_storedTexts_writeBody {written rfc2822 : String} {world : World}
    (mem : text ∈ storedTexts (writeBody env written rfc2822 world) elementId) :
    text ∈ storedTexts world elementId ∨ (written = elementId ∧ rfc2822 = text) := by
  have marked : ∀ world : World, Spares elementId world (world.write env (·.markHasDetails written)) :=
    fun world => .write world fun _ _ => id
  unfold writeBody World.writeAll at mem
  dsimp only at mem
  split at mem
  · exact mem_storedTexts_writeEml mem
  · rw [World.writeAll_singleton] at mem
    exact mem_storedTexts_writeEml ((marked _).mem_storedTexts mem)

theorem mem_storedTexts_persistInlineBody {mailEid eml : String} {details : Option MailDetails} {world : World}
    (mem : text ∈ storedTexts (persistInlineBody env mailEid details eml world) elementId) :
    text ∈ storedTexts world elementId ∨ (mailEid = elementId ∧ eml = text) := by
  rcases mem_storedTexts_insert (writeBody env mailEid eml world) rfl mem with written | added
  · exact mem_storedTexts_writeBody written
  · exact .inr added

/-- An inlined create adds the body it renders. -/
theorem mem_storedTexts_create {target : FolderInfo} {mailEid : String} {pending : PendingMail} {world : World}
    (mem : text ∈ storedTexts (applyInlineCreate env target mailEid pending world) elementId) :
    text ∈ storedTexts world elementId ∨ (mailEid = elementId ∧ inlineRfc2822 env.rendering pending = some text) := by
  unfold applyInlineCreate at mem
  dsimp only at mem
  have persisted := (Spares.assignUidAndUpsert target mailEid _ _).mem_storedTexts mem
  split at persisted
  · exact .inl persisted
  next eml rendered =>
    rcases mem_storedTexts_persistInlineBody persisted with before | ⟨same, rfl⟩
    · exact .inl before
    · exact .inr ⟨same, rendered⟩

/-- A pass adds to the stores only the body in its hands, and gets one into its hands only
when a download completes. -/
theorem prefetchStep_texts {folder : FolderInfo} {state next : Prefetcher} {phase later : PrefetchPhase}
    (stepped : prefetchStep env folder state phase = some (next, later)) : (text ∈ storedTexts next.world elementId →
      text ∈ storedTexts state.world elementId ∨ phase.hand = some (elementId, text)) ∧
    (later.hand = some (elementId, text) → phase.hand = some (elementId, text) ∨ ∃ mail details rest body,
        phase = .attaching elementId mail details rest ∧
        completedBody env state.world.tick elementId mail details = some body ∧ body.rfc2822 = text) := by
  obtain ⟨after, history⟩ := next
  have move : PrefetchMove env folder state.world phase after later := prefetchMove stepped
  have spared : Spares elementId state.world after → text ∈ storedTexts after elementId →
      text ∈ storedTexts state.world elementId ∨ phase.hand = some (elementId, text) :=
    fun spares mem => .inl (spares.mem_storedTexts mem)
  cases move with
  | looks empty stillEmpty sameDisk sameStore =>
    refine ⟨spared (.of_same (by rw [sameDisk]) (by rw [sameStore])), ?_⟩
    rw [stillEmpty]
    exact nofun
  | @obtains _ mail details rest _ answered =>
    refine ⟨spared (.of_same rfl rfl), ?_⟩
    rintro ⟨⟩
    exact .inr ⟨mail, details, rest, _, rfl, by rw [completedBody, answered], rfl⟩
  | @writes written body rest _ goesOn =>
    have added : text ∈ storedTexts (state.world.call env fun store =>
        ((), store.writeEml written body.rfc2822)).2 elementId →
        text ∈ storedTexts state.world elementId ∨ some (written, body.rfc2822) = some (elementId, text) := by
      intro mem
      rcases mem_storedTexts_writeEml mem with before | ⟨rfl, rfl⟩
      · exact .inl before
      · exact .inr rfl
    obtain rfl | rfl := goesOn <;> exact ⟨added, .inl⟩
  | marks => exact ⟨spared (.write _ fun _ _ => id), .inl⟩
  | indexes =>
    refine ⟨spared ?_, .inl⟩
    unfold indexDetails
    split
    · exact .refl _
    · exact .write _ fun _ _ => id
  | completes => exact ⟨spared (.of_same rfl (MailStore.bodies_markComplete _ _ _)), .inl⟩
  | publishes =>
    refine ⟨fun mem => ?_, nofun⟩
    rcases mem_storedTexts_insert state.world rfl mem with before | ⟨rfl, rfl⟩
    · exact .inl before
    · exact .inr rfl

theorem lookUp_spares (asked : String) (world : World) : Spares elementId world (lookUp asked world).2 where
  file _ := id
  cache _ found := by
    rw [lookUp, World.mapStore_store, BodyCache.peek_cached] at found
    exact found

theorem readBody_spares (asked : String) (world : World) : Spares elementId world (readBody env asked world).2 := by
  unfold readBody
  split
  · dsimp only
    split <;> exact .call _ fun _ _ => id
  · exact .refl _

/-- What is read from disk was there. -/
theorem mem_storedTexts_of_readBody {world : World}
    (read : (readBody env elementId world).1 = some text) : text ∈ storedTexts world elementId := by
  unfold readBody at read
  split at read
  · dsimp only at read
    split at read
    next answered =>
      unfold World.call at answered
      split at answered
      · cases answered
      · cases answered
        exact mem_storedTexts_iff.mpr (.inl read)
    · cases read
  · cases read

/-- The same of a fetch, which also gets a body into its hands when it reads one from
disk. -/
theorem fetchStep_texts {target : FetchTarget} {world next : World} {phase later : FetchPhase}
    (stepped : fetchStep env target world phase = some (next, later)) : (text ∈ storedTexts next elementId →
      text ∈ storedTexts world elementId ∨ (target.elementId = elementId ∧ phase.hand = some text)) ∧
    (later.hand = some text → phase.hand = some text ∨ text ∈ storedTexts world target.elementId ∨ ∃ details body,
        phase = .attaching details ∧ completedBody env world.tick target.elementId target.mail details = some body ∧
        body.rfc2822 = text) := by
  have spared : ∀ {next}, Spares elementId world next → text ∈ storedTexts next elementId →
      text ∈ storedTexts world elementId ∨ (target.elementId = elementId ∧ phase.hand = some text) :=
    fun spares mem => .inl (spares.mem_storedTexts mem)
  cases fetchMove stepped with
  | looksUp empty stillEmpty =>
    refine ⟨spared (lookUp_spares _ _), ?_⟩
    rw [stillEmpty]
    exact nofun
  | asks empty stillEmpty sameDisk sameBodies =>
    refine ⟨spared (.of_same (by rw [sameDisk]) sameBodies), ?_⟩
    rw [stillEmpty]
    exact nofun
  | reads isRead gets =>
    refine ⟨spared (readBody_spares _ _), fun held => ?_⟩
    rw [gets] at held
    exact .inr (.inl (mem_storedTexts_of_readBody held))
  | @caches _ _ rfc2822 isCaching empty =>
    have held : phase.hand = some rfc2822 := by obtain rfl | rfl := isCaching <;> rfl
    refine ⟨fun mem => ?_, by rw [empty]; exact nofun⟩
    rcases mem_storedTexts_insert world rfl mem with before | ⟨same, rfl⟩
    · exact .inl before
    · exact .inr ⟨same, held⟩
  | @obtains details _ answered =>
    refine ⟨spared (.of_same rfl rfl), ?_⟩
    rintro ⟨⟩
    exact .inr (.inr ⟨details, _, rfl, by rw [completedBody, answered], rfl⟩)
  | @writes body _ goesOn =>
    have added : text ∈ storedTexts (world.call env fun store =>
        ((), store.writeEml target.elementId body.rfc2822)).2 elementId →
        text ∈ storedTexts world elementId ∨
          (target.elementId = elementId ∧ some body.rfc2822 = some text) := by
      intro mem
      rcases mem_storedTexts_writeEml mem with before | ⟨same, rfl⟩
      · exact .inl before
      · exact .inr ⟨same, rfl⟩
    obtain rfl | rfl := goesOn <;> exact ⟨added, .inl⟩
  | marks => exact ⟨spared (.write _ fun _ _ => id), .inl⟩
  | completes => exact ⟨spared (.of_same rfl (MailStore.bodies_markComplete _ _ _)), .inl⟩
  | publishes =>
    refine ⟨fun mem => ?_, nofun⟩
    rcases mem_storedTexts_insert world rfl mem with before | ⟨same, rfl⟩
    · exact .inl before
    · exact .inr ⟨same, rfl⟩

/-! ## Every run -/

theorem mem_texts_iff {readers : Readers} :
    text ∈ readers.texts elementId ↔ text ∈ storedTexts readers.world elementId ∨
      (∃ folder phase, readers.prefetch = some (folder, phase) ∧ phase.hand = some (elementId, text)) ∨
      ∃ target phase, (target, phase) ∈ readers.fetches ∧ target.elementId = elementId ∧ phase.hand = some text := by
  have inHand : text ∈ (((readers.prefetch.bind fun task => task.2.hand).filter fun body =>
      body.1 = elementId).map Prod.snd).toList ↔
      ∃ folder phase, readers.prefetch = some (folder, phase) ∧ phase.hand = some (elementId, text) := by
    simp [Option.bind_eq_some_iff]
  have fetched : (text ∈ readers.fetches.filterMap fun task =>
      if task.1.elementId = elementId then task.2.hand else none) ↔
      ∃ target phase, (target, phase) ∈ readers.fetches ∧ target.elementId = elementId ∧
        phase.hand = some text := by
    simp [List.mem_filterMap, Option.ite_none_right_eq_some]
  rw [Readers.texts, Readers.carriedTexts, List.mem_append, List.mem_append, inHand, fetched]

variable {readers next : Readers} {label : ReaderLabel}

theorem mem_texts_store {op : StoreOp}
    (mem : text ∈ (readers.setWorld (op.apply env readers.world)).texts elementId) :
    text ∈ readers.texts elementId ∨ ∃ body ∈ rendersBody env readers (.store op),
      body.elementId = elementId ∧ body.rfc2822 = text := by
  rw [mem_texts_iff] at mem
  rcases mem with stored | carried
  · by_cases isCreate : ∃ target mailEid pending, op = .create target mailEid pending
    · obtain ⟨target, mailEid, pending, rfl⟩ := isCreate
      rcases mem_storedTexts_create stored with before | ⟨same, rendered⟩
      · exact .inl (mem_texts_iff.mpr (.inl before))
      · exact .inr ⟨⟨mailEid, pending.mail, text⟩, by simp [rendersBody, rendered], same, rfl⟩
    · have spared : Spares elementId readers.world (op.apply env readers.world) :=
        .apply (fun target mailEid pending same => isCreate ⟨target, mailEid, pending, same⟩) _
      exact .inl (mem_texts_iff.mpr (.inl (spared.mem_storedTexts stored)))
  · exact .inl (mem_texts_iff.mpr (.inr carried))

theorem completedBody_elementId {tick : Nat} {mail : Mail} {details : Option MailDetails}
    {body : RenderedBody} (completed : completedBody env tick elementId mail details = some body) :
    body.elementId = elementId := by
  unfold completedBody at completed
  split at completed <;> cases completed
  rfl

theorem mem_texts_prefetch (moved : moveReaders env readers .prefetch = some next)
    (mem : text ∈ next.texts elementId) :
    text ∈ readers.texts elementId ∨ ∃ body ∈ rendersBody env readers .prefetch,
      body.elementId = elementId ∧ body.rfc2822 = text := by
  simp only [moveReaders] at moved
  split at moved
  · cases moved
  next folder phase here =>
    split at moved
    · cases moved
      rw [mem_texts_iff] at mem
      rcases mem with stored | ⟨_, _, none, _⟩ | fetched
      · exact .inl (mem_texts_iff.mpr (.inl stored))
      · cases none
      · exact .inl (mem_texts_iff.mpr (.inr (.inr fetched)))
    next prefetcher later stepsTo =>
      cases moved
      rw [mem_texts_iff] at mem
      rcases mem with stored | ⟨_, _, moved, held⟩ | fetched
      · rcases (prefetchStep_texts stepsTo).1 stored with before | held
        · exact .inl (mem_texts_iff.mpr (.inl before))
        · exact .inl (mem_texts_iff.mpr (.inr (.inl ⟨folder, phase, here, held⟩)))
      · cases moved
        rcases (prefetchStep_texts stepsTo).2 held with
          before | ⟨mail, details, rest, body, rfl, completed, isText⟩
        · exact .inl (mem_texts_iff.mpr (.inr (.inl ⟨folder, phase, here, before⟩)))
        · refine .inr ⟨body, ?_, ?_, isText⟩
          · simp only [rendersBody, here]
            exact completed
          · exact completedBody_elementId completed
      · exact .inl (mem_texts_iff.mpr (.inr (.inr fetched)))

theorem mem_texts_fetch {position : Nat} (moved : moveReaders env readers (.fetch position) = some next)
    (mem : text ∈ next.texts elementId) :
    text ∈ readers.texts elementId ∨ ∃ body ∈ rendersBody env readers (.fetch position),
      body.elementId = elementId ∧ body.rfc2822 = text := by
  simp only [moveReaders] at moved
  split at moved
  · cases moved
  next target phase here =>
    have inFetches : (target, phase) ∈ readers.fetches := List.mem_of_getElem? here
    split at moved
    · cases moved
      rw [mem_texts_iff] at mem
      rcases mem with stored | held | ⟨other, otherPhase, running, others⟩
      · exact .inl (mem_texts_iff.mpr (.inl stored))
      · exact .inl (mem_texts_iff.mpr (.inr (.inl held)))
      · exact .inl (mem_texts_iff.mpr
          (.inr (.inr ⟨other, otherPhase, List.mem_of_mem_eraseIdx running, others⟩)))
    next world later stepsTo =>
      cases moved
      rw [mem_texts_iff] at mem
      rcases mem with stored | held | ⟨other, otherPhase, running, same, held⟩
      · rcases (fetchStep_texts stepsTo).1 stored with before | ⟨same, held⟩
        · exact .inl (mem_texts_iff.mpr (.inl before))
        · exact .inl (mem_texts_iff.mpr (.inr (.inr ⟨target, phase, inFetches, same, held⟩)))
      · exact .inl (mem_texts_iff.mpr (.inr (.inl held)))
      · rcases List.mem_or_eq_of_mem_set running with before | isTask
        · exact .inl (mem_texts_iff.mpr (.inr (.inr ⟨other, otherPhase, before, same, held⟩)))
        · cases isTask
          subst same
          rcases (@fetchStep_texts env target.elementId _ _ _ _ _ _ stepsTo).2 held with
            before | stored | ⟨details, body, rfl, completed, isText⟩
          · exact .inl (mem_texts_iff.mpr (.inr (.inr ⟨target, phase, inFetches, rfl, before⟩)))
          · exact .inl (mem_texts_iff.mpr (.inl stored))
          · refine .inr ⟨body, ?_, completedBody_elementId completed, isText⟩
            simp only [rendersBody, here]
            exact completed

/-- Every body of a mail was there before the step, or is one the step renders. -/
theorem mem_texts_of_move (moved : moveReaders env readers label = some next) (mem : text ∈ next.texts elementId) :
    text ∈ readers.texts elementId ∨ ∃ body ∈ rendersBody env readers label,
      body.elementId = elementId ∧ body.rfc2822 = text := by
  cases label with
  | store op =>
    cases moved
    exact mem_texts_store mem
  | reopen version =>
    cases moved
    rw [mem_texts_iff] at mem
    rcases mem with stored | ⟨_, _, none, _⟩ | ⟨_, _, none, _⟩
    · have spared : Spares elementId readers.world (reopened version readers.world) :=
        ⟨fun text found => by
          unfold reopened LocalStore.open at found
          dsimp only at found
          split at found <;> exact found, nofun⟩
      exact .inl (mem_texts_iff.mpr (.inl (spared.mem_storedTexts stored)))
    · cases none
    · cases none
  | beginPrefetch folder limit =>
    simp only [moveReaders] at moved
    split at moved <;> cases moved
    rw [mem_texts_iff] at mem
    rcases mem with stored | ⟨_, _, begun, held⟩ | fetched
    · exact .inl (mem_texts_iff.mpr (.inl stored))
    · cases begun
      cases held
    · exact .inl (mem_texts_iff.mpr (.inr (.inr fetched)))
  | prefetch => exact mem_texts_prefetch moved mem
  | beginFetch target =>
    cases moved
    rw [mem_texts_iff] at mem
    rcases mem with stored | held | ⟨other, phase, running, same, held⟩
    · exact .inl (mem_texts_iff.mpr (.inl stored))
    · exact .inl (mem_texts_iff.mpr (.inr (.inl held)))
    · rcases List.mem_append.mp running with before | begun
      · exact .inl (mem_texts_iff.mpr (.inr (.inr ⟨other, phase, before, same, held⟩)))
      · cases List.mem_singleton.mp begun
        unfold FetchTarget.start at held
        split at held <;> cases held
  | fetch position => exact mem_texts_fetch moved mem

/-- Values that refer to the same details and attachments change no reference. -/
theorem references_appliedAfter (same : ∀ value ∈ appliesValues env readers label, value.1 = elementId →
      (readers.applied.get? elementId).map Mail.references = some value.2.references) :
    ((appliedAfter env readers label).get? elementId).map Mail.references =
      (readers.applied.get? elementId).map Mail.references := by
  refine @List.foldlRecOn _ _ (fun applied : Dict String Mail =>
    (applied.get? elementId).map Mail.references =
      (readers.applied.get? elementId).map Mail.references) _ _ _ rfl
    fun applied kept value mem => ?_
  rw [Dict.get?_set]
  split
  next isMail => exact (same value mem isMail.symm).symm
  next => exact kept

/-- A step that is allowed keeps the bodies of the mail fresh. -/
theorem fresh_step (keeps : KeepsFresh env elementId readers label) (fresh : Fresh elementId readers)
    (stepped : readerStep env readers label = some next) : Fresh elementId next := by
  obtain ⟨moved, moves, rfl⟩ := Option.map_eq_some_iff.mp stepped
  intro text mem
  have inMoved : text ∈ moved.texts elementId := mem
  rcases mem_texts_of_move moves inMoved with before | ⟨body, rendered, isMail, isText⟩
  · -- There is a body, so only values with the same references were applied.
    obtain ⟨body, known, isMail, isText, current⟩ := fresh text before
    have same := @references_appliedAfter env elementId readers label fun value mem isMail =>
      (keeps.1 value mem isMail).resolve_right (List.ne_nil_of_mem before)
    exact ⟨body, List.mem_append_right _ known, isMail, isText, same.trans current⟩
  · exact ⟨body, List.mem_append_left _ (Option.mem_toList.mpr rendered), isMail, isText,
      keeps.2 body rendered isMail⟩

end Tasks

/-- In every run that keeps the bodies of the mail fresh, whatever body a FETCH of the mail
is about to answer with was rendered from a value that refers to the same details and
attachments as the value last applied. -/
theorem fetch_answers_current {env : Env} {elementId : String} {start final : Readers}
    {schedule : List ReaderLabel} (fresh : Fresh elementId start)
    (steps : Steps (readerStep env) start schedule final)
    (careful : Careful (readerStep env) (KeepsFresh env elementId) start schedule) :
    ∀ target phase body, (target, phase) ∈ final.fetches → target.elementId = elementId →
      FetchPhase.answer target final.world phase = some body → final.Current elementId body.rfc2822 := by
  have stillFresh : Fresh elementId final :=
    steps.invariant_of_careful (Fresh elementId) (fun _ _ _ => fresh_step) careful fresh
  rintro target phase body running rfl answers
  have held : final.world.store.bodies.peek target.elementId = some body := by
    unfold FetchPhase.answer at answers
    split at answers
    · exact (BodyCache.cached_fst _ _).symm.trans answers
    · exact (BodyCache.cached_fst _ _).symm.trans answers
    · cases answers
  exact stillFresh _ (mem_texts_iff.mpr (.inl (mem_storedTexts_iff.mpr (.inr ⟨body, held, rfl⟩))))

/-! ## A draft that is edited -/

/-- The draft, with the details it refers to. -/
def draftMail (details : String) : Mail :=
  { sampleMail "m1" with mailDetailsDraft := some ⟨"drafts", details⟩ }

/-- A server that lists the draft as it was first saved, and whose details have their own
id as their text. A message is the text of its details. -/
def draftEnv : Env :=
  { quietEnv { servingBackend [] [draftMail "first"] with
      loadMailDetails := fun _ mail =>
        .ok (some { body := ⟨mail.mailDetailsDraft.map IdTuple.elementId, none⟩ }) } with
    rendering := ⟨fun _ details _ => (details.map MailDetails.bodyHtml).getD "", id, id⟩ }

def draftsFolder : FolderInfo := sampleFolder "drafts" "draftEntries"

/-- A bridge that knows nothing yet. -/
def freshReaders : Readers :=
  { prefetcher := ⟨sampleWorld [draftsFolder] [], .empty⟩
    prefetch := none
    fetches := []
    rendered := []
    applied := .empty }

/-- A pass of the prefetch over the one mail of the folder. -/
def draftPass : List ReaderLabel :=
  .beginPrefetch draftsFolder 0 :: List.replicate 10 .prefetch

/-- The client opens the edited draft, whose body is loaded. -/
def openedDraft : FetchTarget := ⟨"drafts", "m1", draftMail "edited", true⟩

/-- The draft is edited before its body is downloaded. -/
theorem fetch_answers_current_edited : ∃ final, Steps (readerStep draftEnv) freshReaders
      ([.store (.sync draftsFolder), .store (.update "m1" (draftMail "edited"))] ++ draftPass ++
        [.beginFetch openedDraft]) final ∧
      (∃ task ∈ final.fetches, ∃ body, FetchPhase.answer task.1 final.world task.2 = some body) ∧
      ∀ target phase body, (target, phase) ∈ final.fetches → target.elementId = "m1" →
        FetchPhase.answer target final.world phase = some body →
        final.Current "m1" body.rfc2822 := by
  obtain ⟨final, steps, answered⟩ : ∃ final, Steps (readerStep draftEnv) freshReaders
      ([.store (.sync draftsFolder), .store (.update "m1" (draftMail "edited"))] ++ draftPass ++
        [.beginFetch openedDraft]) final ∧
      ∃ task ∈ final.fetches, (FetchPhase.answer task.1 final.world task.2).isSome :=
    Steps.exists_of_any _ (by decide +kernel)
  obtain ⟨task, running, answers⟩ := answered
  refine ⟨final, steps, ⟨task, running, Option.isSome_iff_exists.mp answers⟩, ?_⟩
  exact fetch_answers_current (by unfold Fresh; decide +kernel) steps (by decide +kernel)

/-- The draft is edited after its body was downloaded. The client is shown the text from
before. -/
theorem edited_draft_shows_old_body : ∃ final, Steps (readerStep draftEnv) freshReaders
      (.store (.sync draftsFolder) :: draftPass ++
        [.store (.update "m1" (draftMail "edited")), .beginFetch openedDraft]) final ∧
      final.applied.get? "m1" = some (draftMail "edited") ∧
      (∃ task ∈ final.fetches, task.1 = openedDraft ∧
        (FetchPhase.answer task.1 final.world task.2).map BodyEntry.rfc2822 = some "first") ∧
      ¬ final.Current "m1" "first" :=
  Steps.exists_of_any _ (by decide +kernel)

end TutaBridge.Runs
