import TutaBridge.Runs.Freshness
import TutaBridge.Sync.Details

/-!
# Only complete messages are kept

Three writers fill the cache and the directory of body files: an inlined create, the
prefetch and a client's fetch. Each of them renders a message only when everything it
consists of is at hand, from one value of the mail. So every body that is kept, on disk
or in memory, is a complete message, also after a restart.
-/

namespace TutaBridge.Runs

open TutaBridge.Std Tuta Store Bridge Sync
open Events Imap

/-! ## Complete messages -/

/-- The value is one of the mail's: it has the mail's id, or came inlined in an event of
the mail. -/
def IsVersion (env : Env) (elementId : String) (mail : Mail) : Prop :=
  mail.elementId = some elementId ∨ ∃ details, Bundled env elementId ⟨mail, details⟩

/-- The details of a value: what the server has for it, or what came with it in one event. -/
inductive DetailsOf (env : Env) (client : BodyClient) (elementId : String) (mail : Mail) :
    Option MailDetails → Prop where
  | served {details : Option MailDetails} (answered : ServedDetails client mail details) :
      DetailsOf env client elementId mail details
  | bundled {details : MailDetails} (inlined : Bundled env elementId ⟨mail, some details⟩) :
      DetailsOf env client elementId mail (some details)

/-- The text is the rendering of one value of the mail, with the details of that value and
with every attachment that it lists, in order. -/
def Complete (env : Env) (client : BodyClient)
    (IsFile : IdTuple → TutanotaFile × List UInt8 → Prop) (elementId text : String) : Prop :=
  ∃ mail details files, IsVersion env elementId mail ∧ DetailsOf env client elementId mail details ∧
    List.Forall₂ IsFile mail.attachments files ∧
    text = env.rendering.mailToRfc2822 mail details files

/-- `load_attachments` succeeds only with all the attachments a mail lists, in order. -/
def LoadsAllFiles (env : Env) (IsFile : IdTuple → TutanotaFile × List UInt8 → Prop) : Prop :=
  ∀ tick mail files, env.backend.loadAttachments tick mail = .ok files →
    List.Forall₂ IsFile mail.attachments files

/-! ## What the tasks have in their hands -/

/-- What a pass asked for belongs to the mail it asks about. -/
def PrefetchPhase.Consistent (client : BodyClient) : PrefetchPhase → Prop
  | .requesting elementId mail _ _ => mail.elementId = some elementId
  | .attaching elementId mail details _ =>
    mail.elementId = some elementId ∧ ServedDetails client mail details
  | _ => True

/-- The details a fetch has are those of its mail. -/
def FetchPhase.Consistent (client : BodyClient) (target : FetchTarget) : FetchPhase → Prop
  | .attaching details => ServedDetails client target.mail details
  | _ => True

/-- A fetch is about the mail whose value it has. -/
def FetchTarget.Named (target : FetchTarget) : Prop := target.mail.elementId = some target.elementId

/-- Where an operation or a fetch gets its mail from: an inlined create from the event
that inlined it, a fetch from the list of its session. -/
def ReaderLabel.Sourced (env : Env) : ReaderLabel → Prop
  | .store op => op.Bundled env
  | .beginFetch target => FetchTarget.Named target
  | _ => True

/-- There is no body yet, and nobody is getting one. -/
structure Readers.Blank (readers : Readers) : Prop where
  bodies : ∀ elementId, storedTexts readers.world elementId = []
  prefetch : readers.prefetch = none
  fetches : readers.fetches = []

/-- Every body is complete, and the tasks work towards complete ones. -/
structure Readers.AllComplete (env : Env) (client : BodyClient)
    (IsFile : IdTuple → TutanotaFile × List UInt8 → Prop) (readers : Readers) : Prop where
  bodies : ∀ elementId, ∀ text ∈ readers.texts elementId, Complete env client IsFile elementId text
  prefetch : ∀ task ∈ readers.prefetch, PrefetchPhase.Consistent client task.2
  fetches : ∀ task ∈ readers.fetches, FetchTarget.Named task.1 ∧ FetchPhase.Consistent client task.1 task.2

/-! ## One step -/

section Tasks

variable {env : Env} {client : BodyClient} {IsFile : IdTuple → TutanotaFile × List UInt8 → Prop}

theorem Readers.Blank.allComplete {readers : Readers} (blank : readers.Blank) :
    readers.AllComplete (detailsEnv env client) client IsFile where
  bodies elementId text mem := by
    rw [mem_texts_iff, blank.bodies, blank.prefetch, blank.fetches] at mem
    rcases mem with stored | ⟨_, _, running, _⟩ | ⟨_, _, running, _⟩
    · exact absurd stored List.not_mem_nil
    · cases running
    · exact absurd running List.not_mem_nil
  prefetch task running := by
    rw [blank.prefetch] at running
    cases running
  fetches task running := by
    rw [blank.fetches] at running
    exact absurd running List.not_mem_nil

/-- A pass goes on with the value it looked up, and with the details of that value. -/
theorem prefetchStep_consistent {folder : FolderInfo} {state next : Prefetcher}
    {phase later : PrefetchPhase} (consistent : PrefetchPhase.Consistent client phase)
    (stepped : prefetchStep (detailsEnv env client) folder state phase = some (next, later)) :
    PrefetchPhase.Consistent client later := by
  cases phase with
  | scanning rest =>
    cases rest with
    | nil => cases stepped
    | cons stored rest =>
      simp only [prefetchStep] at stepped
      split at stepped
      · cases stepped
        trivial
      · split at stepped
        · cases stepped
          trivial
        · split at stepped <;> cases stepped <;> trivial
  | checking elementId retries rest =>
    simp only [prefetchStep] at stepped
    split at stepped
    · cases stepped
      trivial
    next current found =>
      cases stepped
      exact (MailStore.mailInFolder_eq_some_imp found).2
  | requesting elementId mail retries rest =>
    simp only [prefetchStep] at stepped
    split at stepped
    next details answered =>
      cases stepped
      exact ⟨consistent, loadMailDetails_eq_ok_imp answered⟩
    · cases stepped
      trivial
    · cases stepped
      trivial
  | attaching elementId mail details rest =>
    simp only [prefetchStep] at stepped
    split at stepped <;> cases stepped <;> trivial
  | writing elementId body rest =>
    simp only [prefetchStep] at stepped
    split at stepped <;> cases stepped <;> trivial
  | marking | indexing | completing | publishing =>
    cases stepped
    trivial

/-- A fetch asks for the attachments of its mail with the details of its mail. -/
theorem fetchStep_consistent {target : FetchTarget} {world next : World} {phase later : FetchPhase}
    (stepped : fetchStep (detailsEnv env client) target world phase = some (next, later)) :
    FetchPhase.Consistent client target later := by
  cases phase with
  | requesting =>
    simp only [fetchStep] at stepped
    split at stepped
    · cases stepped
      trivial
    next details answered =>
      cases stepped
      exact loadMailDetails_eq_ok_imp answered
  | available | reading | confirming | deciding | attaching | writing | answering | rereading =>
    simp only [fetchStep] at stepped
    split at stepped <;> cases stepped <;> trivial
  | caching | marking | completing | publishing | recaching | touching =>
    cases stepped
    trivial
  | finished => cases stepped

/-- A download of all attachments completes the message. -/
theorem completedBody_complete {tick : Nat} {elementId : String} {mail : Mail}
    {details : Option MailDetails} {body : RenderedBody} (allFiles : LoadsAllFiles env IsFile)
    (named : mail.elementId = some elementId) (served : ServedDetails client mail details)
    (completed : completedBody (detailsEnv env client) tick elementId mail details = some body) :
    Complete (detailsEnv env client) client IsFile body.elementId body.rfc2822 := by
  unfold completedBody at completed
  split at completed
  · cases completed
  next files answered =>
    cases completed
    exact ⟨mail, details, files, .inl named, .served served, allFiles tick mail files answered, rfl⟩

/-- A message whose details came inlined, and that lists no attachment, is complete. -/
theorem inlineRfc2822_complete {mailEid eml : String} {pending : PendingMail} (bundled : Bundled env mailEid pending)
    (rendered : inlineRfc2822 env.rendering pending = some eml) : Complete env client IsFile mailEid eml := by
  obtain ⟨mail, inlined⟩ := pending
  obtain ⟨details, rfl, shown⟩ := Option.bind_eq_some_iff.mp rendered
  split at shown
  next none =>
    cases shown
    have noFiles : mail.attachments = [] := List.isEmpty_iff.mp none
    exact ⟨mail, some details, [], .inr ⟨_, bundled⟩, .bundled bundled, by rw [noFiles]; exact .nil, rfl⟩
  next => cases shown

/-- Whatever a step renders is a complete message. -/
theorem rendersBody_complete {readers : Readers} {label : ReaderLabel} {body : RenderedBody}
    (allFiles : LoadsAllFiles env IsFile) (complete : readers.AllComplete (detailsEnv env client) client IsFile)
    (sourced : label.Sourced (detailsEnv env client))
    (rendered : body ∈ rendersBody (detailsEnv env client) readers label) :
    Complete (detailsEnv env client) client IsFile body.elementId body.rfc2822 := by
  unfold rendersBody at rendered
  split at rendered
  next target mailEid pending =>
    obtain ⟨eml, shown, rfl⟩ := Option.map_eq_some_iff.mp rendered
    exact inlineRfc2822_complete sourced shown
  next =>
    split at rendered
    next folder elementId mail details rest running =>
      obtain ⟨named, served⟩ := complete.prefetch _ running
      exact completedBody_complete allFiles named served rendered
    next => cases rendered
  next position =>
    split at rendered
    next target details running =>
      obtain ⟨named, served⟩ := complete.fetches _ (List.mem_of_getElem? running)
      exact completedBody_complete allFiles named served rendered
    next => cases rendered
  next => cases rendered

theorem consistent_of_move {readers next : Readers} {label : ReaderLabel}
    (complete : readers.AllComplete (detailsEnv env client) client IsFile)
    (sourced : label.Sourced (detailsEnv env client))
    (moved : moveReaders (detailsEnv env client) readers label = some next) :
    (∀ task ∈ next.prefetch, PrefetchPhase.Consistent client task.2) ∧
    ∀ task ∈ next.fetches, FetchTarget.Named task.1 ∧ FetchPhase.Consistent client task.1 task.2 := by
  cases label with
  | store op =>
    cases moved
    exact ⟨complete.prefetch, complete.fetches⟩
  | reopen version =>
    cases moved
    exact ⟨fun _ running => absurd running (Option.not_mem_none _),
      fun _ running => absurd running List.not_mem_nil⟩
  | beginPrefetch folder limit =>
    simp only [moveReaders] at moved
    split at moved <;> cases moved
    refine ⟨fun task begun => ?_, complete.fetches⟩
    cases begun
    trivial
  | prefetch =>
    simp only [moveReaders] at moved
    split at moved
    · cases moved
    next folder phase running =>
      split at moved
      · cases moved
        exact ⟨fun _ none => absurd none (Option.not_mem_none _), complete.fetches⟩
      next prefetcher later stepped =>
        cases moved
        refine ⟨fun task goesOn => ?_, complete.fetches⟩
        cases goesOn
        exact prefetchStep_consistent (complete.prefetch _ running) stepped
  | beginFetch target =>
    cases moved
    refine ⟨complete.prefetch, fun task running => ?_⟩
    rcases List.mem_append.mp running with before | begun
    · exact complete.fetches task before
    · rw [List.mem_singleton.mp begun]
      refine ⟨sourced, ?_⟩
      unfold FetchTarget.start
      split <;> trivial
  | fetch position =>
    simp only [moveReaders] at moved
    split at moved
    · cases moved
    next target phase running =>
      split at moved
      · cases moved
        exact ⟨complete.prefetch, fun task others =>
          complete.fetches task (List.mem_of_mem_eraseIdx others)⟩
      next world later stepped =>
        cases moved
        refine ⟨complete.prefetch, fun task among => ?_⟩
        rcases List.mem_or_eq_of_mem_set among with before | rfl
        · exact complete.fetches task before
        · exact ⟨(complete.fetches _ (List.mem_of_getElem? running)).1,
            fetchStep_consistent stepped⟩

theorem allComplete_step {readers next : Readers} {label : ReaderLabel}
    (allFiles : LoadsAllFiles env IsFile) (complete : readers.AllComplete (detailsEnv env client) client IsFile)
    (sourced : label.Sourced (detailsEnv env client))
    (stepped : readerStep (detailsEnv env client) readers label = some next) :
    next.AllComplete (detailsEnv env client) client IsFile := by
  obtain ⟨moved, moves, rfl⟩ := Option.map_eq_some_iff.mp stepped
  obtain ⟨prefetch, fetches⟩ := consistent_of_move complete sourced moves
  refine ⟨fun elementId text mem => ?_, prefetch, fetches⟩
  have inMoved : text ∈ moved.texts elementId := mem
  rcases mem_texts_of_move moves inMoved with before | ⟨body, rendered, rfl, rfl⟩
  · exact complete.bodies elementId text before
  · exact rendersBody_complete allFiles complete sourced rendered

/-! ## Every run -/

/-- In every run the stores have complete bodies only. -/
theorem storedTexts_complete {start final : Readers} {schedule : List ReaderLabel}
    (allFiles : LoadsAllFiles env IsFile) (blank : start.Blank)
    (sourced : ∀ label ∈ schedule, label.Sourced (detailsEnv env client))
    (steps : Steps (readerStep (detailsEnv env client)) start schedule final) (elementId : String) :
    ∀ text ∈ storedTexts final.world elementId, Complete (detailsEnv env client) client IsFile elementId text := by
  have complete : final.AllComplete (detailsEnv env client) client IsFile :=
    steps.invariant_of_careful (Readers.AllComplete (detailsEnv env client) client IsFile)
      (fun _ _ _ sourced complete => allComplete_step allFiles complete sourced)
      (Steps.careful_of_forall (fun label mem _ => sourced label mem) start)
      blank.allComplete
  exact fun text mem => complete.bodies elementId text (mem_texts_iff.mpr (.inl mem))

end Tasks

/-- Whatever is handled, prefetched and fetched, in whatever order and with whatever
failures, every body file and every cached body is a complete message of its mail. So is
what a restart takes for loaded. The handler places an inlined mail only under the id of
the event that inlined it. -/
theorem kept_bodies_complete {env : Env} {client : BodyClient}
    {IsFile : IdTuple → TutanotaFile × List UInt8 → Prop} (allFiles : LoadsAllFiles env IsFile) :
    (∀ world msg, Handles (detailsEnv env client) world (process (detailsEnv env client) world msg)) ∧
    ∀ (start final : Readers) (schedule : List ReaderLabel), start.Blank →
      (∀ label ∈ schedule, label.Sourced (detailsEnv env client)) →
      Steps (readerStep (detailsEnv env client)) start schedule final →
      (∀ elementId, ∀ text ∈ storedTexts final.world elementId,
        Complete (detailsEnv env client) client IsFile elementId text) ∧
      ∀ row stored, cachedMail env.codec final.world.localStore row = some stored → stored.bodyLoaded = true →
        ∃ text, final.world.localStore.readEml row.elementId = some text ∧
          Complete (detailsEnv env client) client IsFile row.elementId text := by
  refine ⟨Handles.process, fun start final schedule blank sourced steps => ?_⟩
  have stored := storedTexts_complete allFiles blank sourced steps
  refine ⟨stored, fun row mail read loaded => ?_⟩
  obtain ⟨value, _, rfl⟩ := Option.map_eq_some_iff.mp read
  obtain ⟨text, found⟩ := Option.isSome_iff_exists.mp loaded
  exact ⟨text, found, stored row.elementId text (mem_storedTexts_iff.mpr (.inl found))⟩

/-- A mail with an attachment, and details at the server. -/
def attachedMail : Mail :=
  { sampleMail "m1" with
    mailDetails := some ⟨"blobs", "d1"⟩
    attachments := [⟨"files", "f1"⟩] }

/-- A server that has a body at every place and fails the first request for attachments. A
file has the id of its attachment as its name. -/
def attachingEnv : Env :=
  { quietEnv { servingBackend [] [attachedMail] with
      loadAttachments := fun tick mail =>
        if tick ≤ 5 then .error (.transport .restClient)
        else .ok (mail.attachments.map fun id => (⟨id.elementId, none, none⟩, [])) } with
    rendering := ⟨fun mail details files =>
      String.ofList (mail.subject.toList ++ (details.map MailDetails.bodyHtml).toList.flatMap String.toList ++
        files.flatMap fun file => file.1.name.toList), id, id⟩ }

def sourceClient : BodyClient where
  loadBody _ _ source := match source with
    | .blob id => .ok { body := ⟨some id.elementId, none⟩ }
    | .draft id => .ok { body := ⟨some id.elementId, none⟩ }
  errorText _ := "failed"

/-- The file has the id of the attachment as its name. -/
def NamedFile (id : IdTuple) (file : TutanotaFile × List UInt8) : Prop := file.1.name = id.elementId

theorem attachingEnv_loadsAllFiles : LoadsAllFiles attachingEnv NamedFile := by
  intro tick mail files answered
  simp only [attachingEnv, quietEnv] at answered
  split at answered
  · cases answered
  · cases answered
    rw [List.forall₂_map_right_iff, List.forall₂_same]
    exact fun _ _ => rfl

/-- The client opens the mail before its body is loaded. -/
def openedAttached : FetchTarget := ⟨"drafts", "m1", attachedMail, false⟩

/-- A fetch that fails at the attachments, a restart, and a fetch of the mail again. -/
def attachedSchedule : List ReaderLabel :=
  .store (.sync draftsFolder) :: .beginFetch openedAttached :: List.replicate 6 (.fetch 0) ++
    [.reopen schemaVersion, .beginFetch openedAttached] ++ List.replicate 11 (.fetch 0)

theorem attachedSchedule_sourced (env : Env) : ∀ label ∈ attachedSchedule, label.Sourced env := by
  intro label mem
  simp only [attachedSchedule, List.mem_append, List.mem_cons, List.mem_replicate,
    List.not_mem_nil, or_false] at mem
  rcases mem with ((rfl | rfl | ⟨_, rfl⟩) | rfl | rfl) | ⟨_, rfl⟩
  · trivial
  · rfl
  · trivial
  · trivial
  · rfl
  · trivial

/-- The body of the second fetch is kept, and it is complete. -/
theorem kept_bodies_complete_attached : LoadsAllFiles attachingEnv NamedFile ∧
    ∃ final, Steps (readerStep (detailsEnv attachingEnv sourceClient)) freshReaders attachedSchedule final ∧
      storedTexts final.world "m1" = ["Subjectd1f1", "Subjectd1f1"] ∧
      Complete (detailsEnv attachingEnv sourceClient) sourceClient NamedFile "m1" "Subjectd1f1" := by
  obtain ⟨final, steps, kept⟩ :
      ∃ final, Steps (readerStep (detailsEnv attachingEnv sourceClient)) freshReaders attachedSchedule
          final ∧ storedTexts final.world "m1" = ["Subjectd1f1", "Subjectd1f1"] :=
    Steps.exists_of_any _ (by decide +kernel)
  have blank : freshReaders.Blank := ⟨fun _ => rfl, rfl, rfl⟩
  refine ⟨attachingEnv_loadsAllFiles, final, steps, kept, ?_⟩
  exact ((kept_bodies_complete attachingEnv_loadsAllFiles).2 freshReaders final attachedSchedule blank
    (attachedSchedule_sourced _) steps).1 "m1" "Subjectd1f1" (by rw [kept]; exact List.mem_cons_self)

end TutaBridge.Runs
