import TutaBridge.Backup.Export
import TutaBridge.Events.Handler

/-!
# Runs that go on where others stopped

A file that is there is taken for a whole message. So runs into one directory are complete as
long as every visit that leaves a file leaves the whole message: neither its details nor its
attachments fail to load, and no write stops half way. Then a mail has its whole message on
the disk, or it is in the errors of the run and has no file, and the next run tries it again.
-/

namespace TutaBridge.Backup

open TutaBridge.Std Tuta Store Bridge Events

variable {fromCache : Bool} {before after : Export} {eml : String}

section Completeness

variable (rendering : Rendering) (mailbox : Mailbox) (attempt : Attempt)

/-- A mail that is listed in a folder, with its id. -/
structure Entry (folder : FolderInfo) (mail : Mail) (elementId : String) : Prop where
  folderListed : folder ∈ mailbox.folders
  mailListed : mail ∈ mailbox.mails folder
  identified : mail.elementId = some elementId

/-- The file of a mail holds the whole message. -/
def Whole (files : Dict Path (List UInt8)) (folder : FolderInfo) (mail : Mail) (elementId : String) : Prop :=
  files.get? (mailPath folder mail elementId) = some (bytesOf (fullRendering rendering mailbox mail))

/-- No file of a mail holds anything but the whole message. -/
def Sound (files : Dict Path (List UInt8)) : Prop :=
  ∀ folder mail elementId, Entry mailbox folder mail elementId →
    ∀ contents, files.get? (mailPath folder mail elementId) = some contents →
      contents = bytesOf (fullRendering rendering mailbox mail)

/-- A mail is in the errors of a run. -/
def Reported (errors : List String) (elementId : String) : Prop :=
  ∃ reason, elementId ++ ": " ++ reason ∈ errors

/-- A mail has its whole message, or it is reported and the next run will not skip it. -/
def Covered (files : Dict Path (List UInt8)) (errors : List String) (folder : FolderInfo)
    (mail : Mail) (elementId : String) : Prop :=
  Whole rendering mailbox files folder mail elementId ∨
    Reported errors elementId ∧ files.get? (mailPath folder mail elementId) = none

/-- Every mail has an id, and mails that share a path are the same message. -/
structure Regular : Prop where
  identified : ∀ folder ∈ mailbox.folders, ∀ mail ∈ mailbox.mails folder, mail.elementId ≠ none
  apart : ∀ folder mail elementId folder' mail' elementId', Entry mailbox folder mail elementId →
    Entry mailbox folder' mail' elementId' →
    mailPath folder mail elementId = mailPath folder' mail' elementId' →
    fullRendering rendering mailbox mail = fullRendering rendering mailbox mail'

/-- A visit gets the whole message: from a complete cache, or from a server that answers. -/
def GetsWhole (mail : Mail) (elementId : String) (visit : Nat) : Prop :=
  match cachedEml attempt elementId visit with
  | some cached => cached = fullRendering rendering mailbox mail
  | none =>
    ((attempt.faults visit).loadMailDetails = none ∨ mailbox.details mail = none) ∧
      ((attempt.faults visit).loadAttachments = none ∨ mailbox.files mail = [])

/-- A write that is given the whole message keeps all of it. -/
def KeepsWhole (mail : Mail) (visit : Nat) : Prop :=
  ∀ fault count, (attempt.faults visit).write = some fault → fault.leaves = some count →
    (bytesOf (fullRendering rendering mailbox mail)).length ≤ count

/-- A visit to a mail without a file leaves none, or the whole message. -/
def Untroubled (folder : FolderInfo) (state : Export) (mail : Mail) : Prop :=
  ∀ elementId, mail.elementId = some elementId → state.files.get? (mailPath folder mail elementId) = none →
    (∃ fault, (attempt.faults state.visited).write = some fault ∧ fault.leaves = none) ∨
      GetsWhole rendering mailbox attempt mail elementId state.visited ∧
        KeepsWhole rendering mailbox attempt mail state.visited

/-- A mail that is skipped has its whole message. -/
def SkipsWhole (folder : FolderInfo) (state : Export) (mail : Mail) : Prop :=
  ∀ elementId, mail.elementId = some elementId → (state.files.get? (mailPath folder mail elementId)).isSome →
    Whole rendering mailbox state.files folder mail elementId

/-- Every visit of a run meets a condition. -/
def Throughout (Meets : FolderInfo → Export → Mail → Prop) : List FolderInfo → Export → Prop
  | [], _ => True
  | folder :: rest, state =>
    match attempt.fatal state.stats.folders with
    | some _ => True
    | none =>
      Guarded (visit rendering mailbox attempt folder) (Meets folder)
          { state with stats := { state.stats with folders := state.stats.folders + 1 } }
          (mailbox.mails folder) ∧
        Throughout Meets rest (visitFolder rendering mailbox attempt folder state)

/-- Files are only added, and errors, too. -/
structure Grows (before after : Export) : Prop where
  files : ∀ path contents, before.files.get? path = some contents → after.files.get? path = some contents
  errors : ∀ error ∈ before.stats.errors, error ∈ after.stats.errors

end Completeness

variable {rendering : Rendering} {mailbox : Mailbox} {attempt : Attempt} {folder : FolderInfo}
  {state : Export} {mail : Mail} {elementId : String}

theorem Grows.refl (state : Export) : Grows state state := ⟨fun _ _ held => held, fun _ mem => mem⟩

theorem Grows.trans {first second third : Export} (early : Grows first second)
    (late : Grows second third) : Grows first third :=
  ⟨fun path contents held => late.files path contents (early.files path contents held),
    fun error mem => late.errors error (early.errors error mem)⟩

/-- What was covered stays covered as long as every file is whole. -/
theorem Covered.grows
    (covered : Covered rendering mailbox before.files before.stats.errors folder mail elementId)
    (grows : Grows before after) (sound : Sound rendering mailbox after.files)
    (entry : Entry mailbox folder mail elementId) :
    Covered rendering mailbox after.files after.stats.errors folder mail elementId := by
  obtain whole | ⟨⟨reason, reported⟩, -⟩ := covered
  · exact .inl (grows.files _ _ whole)
  · cases held : after.files.get? (mailPath folder mail elementId) with
    | none => exact .inr ⟨⟨reason, grows.errors _ reported⟩, held⟩
    | some contents =>
      refine .inl ?_
      rw [Whole, held, sound folder mail elementId entry contents held]

/-! ## One visit -/

/-- Writing a file touches no other. -/
theorem get?_writePrivate_of_ne {path other : Path} (different : other ≠ path)
    (contents : List UInt8) (fault : Option WriteFault) (files : Dict Path (List UInt8)) :
    (writePrivate path contents fault files).get? other = files.get? other := by
  unfold writePrivate
  split
  next => rw [Dict.get?_set, if_neg different]
  next =>
    split
    next => rfl
    next => rw [Dict.get?_set, if_neg different]

theorem files_keepEml (path : Path) (elementId eml : String) (fromCache : Bool) :
    (keepEml attempt path elementId eml fromCache state).files =
      writePrivate path (bytesOf eml) (attempt.faults state.visited).write state.files := by
  unfold keepEml
  dsimp only
  split
  next written => rw [written]
  next fault failed => rw [failed]

/-- A failed write is noted. -/
theorem reported_keepEml {path : Path} {fault : WriteFault}
    (failed : (attempt.faults state.visited).write = some fault) :
    Reported (keepEml attempt path elementId eml fromCache state).stats.errors elementId := by
  refine ⟨"write: " ++ fault.message, ?_⟩
  simp only [keepEml, failed]
  refine List.mem_append_right _ (List.mem_singleton.mpr ?_)
  have joined : ": " ++ ("write: " ++ fault.message) = ": write: " ++ fault.message := by
    rw [← String.append_assoc]
    rfl
  rw [String.append_assoc, joined, String.append_assoc]

theorem errors_keepEml {path : Path} {error : String}
    (mem : error ∈ state.stats.errors) :
    error ∈ (keepEml attempt path elementId eml fromCache state).stats.errors := by
  unfold keepEml
  dsimp only
  split
  next => exact mem
  next => exact List.mem_append_left _ mem

/-- Keeping a message leaves the whole message, or none and a report. -/
theorem keepEml_settles {path : Path} (absent : state.files.get? path = none)
    (safe : (∃ fault, (attempt.faults state.visited).write = some fault ∧ fault.leaves = none) ∨
      eml = fullRendering rendering mailbox mail ∧ KeepsWhole rendering mailbox attempt mail state.visited) :
    (keepEml attempt path elementId eml fromCache state).files.get? path =
        some (bytesOf (fullRendering rendering mailbox mail)) ∨
      Reported (keepEml attempt path elementId eml fromCache state).stats.errors elementId ∧
        (keepEml attempt path elementId eml fromCache state).files.get? path = none := by
  rw [files_keepEml]
  cases written : (attempt.faults state.visited).write with
  | none =>
    obtain ⟨fault, failed, -⟩ | ⟨whole, -⟩ := safe
    · rw [written] at failed
      cases failed
    · refine .inl ?_
      rw [writePrivate, Dict.get?_set, if_pos rfl, whole]
  | some fault =>
    cases left : fault.leaves with
    | none =>
      refine .inr ⟨reported_keepEml written, ?_⟩
      simp only [writePrivate, left]
      exact absent
    | some count =>
      obtain ⟨other, failed, leavesNone⟩ | ⟨whole, keeps⟩ := safe
      · rw [written] at failed
        rw [← Option.some.inj failed, left] at leavesNone
        cases leavesNone
      · refine .inl ?_
        simp only [writePrivate, left]
        rw [Dict.get?_set, if_pos rfl, whole, List.take_of_length_le (keeps fault count written left)]

/-- What was fetched is the whole message, if nothing failed that it needs. -/
theorem fetchEml_whole {visit : Nat} (missing : cachedEml attempt elementId visit = none)
    (gets : GetsWhole rendering mailbox attempt mail elementId visit) :
    (fetchEml rendering mailbox attempt mail elementId visit).1 = fullRendering rendering mailbox mail := by
  simp only [GetsWhole, missing] at gets
  obtain ⟨details, files⟩ := gets
  have sameDetails : loadedDetails mailbox attempt mail visit = mailbox.details mail := by
    unfold loadedDetails
    split
    next fault failed =>
      obtain loaded | nothing := details
      · rw [failed] at loaded
        cases loaded
      · exact nothing.symm
    next => rfl
  simp only [fetchEml, sameDetails]
  split
  next fault failed =>
    obtain loaded | nothing := files
    · rw [failed] at loaded
      cases loaded
    · rw [fullRendering, nothing]
  next => rfl

/-- What one visit does about its mail. -/
structure Visited (rendering : Rendering) (mailbox : Mailbox) (folder : FolderInfo) (mail : Mail)
    (elementId : String) (before after : Export) : Prop where
  settles : after.files.get? (mailPath folder mail elementId) =
      some (bytesOf (fullRendering rendering mailbox mail)) ∨
    Reported after.stats.errors elementId ∧ after.files.get? (mailPath folder mail elementId) = none
  others : ∀ other, other ≠ mailPath folder mail elementId → after.files.get? other = before.files.get? other
  errors : ∀ error ∈ before.stats.errors, error ∈ after.stats.errors

theorem visited_keepEml {before : Export} (absent : state.files.get? (mailPath folder mail elementId) = none)
    (safe : (∃ fault, (attempt.faults state.visited).write = some fault ∧ fault.leaves = none) ∨
      eml = fullRendering rendering mailbox mail ∧ KeepsWhole rendering mailbox attempt mail state.visited)
    (sameFiles : state.files = before.files)
    (errors : ∀ error ∈ before.stats.errors, error ∈ state.stats.errors) :
    Visited rendering mailbox folder mail elementId before
      (keepEml attempt (mailPath folder mail elementId) elementId eml fromCache state) where
  settles := keepEml_settles absent safe
  others other different := by rw [files_keepEml, get?_writePrivate_of_ne different, sameFiles]
  errors error mem := errors_keepEml (errors error mem)

/-- A visit to a mail without a file. -/
theorem visited_of_absent (identified : mail.elementId = some elementId)
    (absent : state.files.get? (mailPath folder mail elementId) = none)
    (untroubled : Untroubled rendering mailbox attempt folder state mail) :
    Visited rendering mailbox folder mail elementId state (visit rendering mailbox attempt folder state mail) := by
  have safe := untroubled elementId identified absent
  have noFile : ¬ (state.files.get? (mailPath folder mail elementId)).isSome = true := by
    rw [absent]
    exact Bool.false_ne_true
  simp only [visit, identified]
  rw [if_neg noFile]
  split
  next cached hit =>
    refine visited_keepEml absent ?_ rfl fun _ mem => mem
    obtain nothing | ⟨gets, keeps⟩ := safe
    · exact .inl nothing
    · rw [GetsWhole, hit] at gets
      exact .inr ⟨gets, keeps⟩
  next missing =>
    refine visited_keepEml absent ?_ rfl fun _ mem => List.mem_append_left _ mem
    obtain nothing | ⟨gets, keeps⟩ := safe
    · exact .inl nothing
    · exact .inr ⟨fetchEml_whole missing gets, keeps⟩

/-- A visit that settles its mail keeps every file whole. -/
theorem Visited.sound (regular : Regular rendering mailbox)
    (visited : Visited rendering mailbox folder mail elementId before after)
    (entry : Entry mailbox folder mail elementId) (sound : Sound rendering mailbox before.files) :
    Sound rendering mailbox after.files := by
  intro folder' mail' elementId' entry' contents held
  by_cases same : mailPath folder' mail' elementId' = mailPath folder mail elementId
  · have sameMessage := regular.apart folder' mail' elementId' folder mail elementId entry' entry same
    rw [same] at held
    obtain whole | ⟨-, absent⟩ := visited.settles
    · rw [sameMessage]
      exact Option.some.inj (held.symm.trans whole)
    · rw [absent] at held
      cases held
  · rw [visited.others _ same] at held
    exact sound folder' mail' elementId' entry' contents held

theorem Visited.grows (visited : Visited rendering mailbox folder mail elementId before after)
    (absent : before.files.get? (mailPath folder mail elementId) = none) : Grows before after := by
  refine ⟨fun path contents held => ?_, visited.errors⟩
  have different : path ≠ mailPath folder mail elementId := by
    intro same
    rw [same, absent] at held
    cases held
  rw [visited.others path different]
  exact held

/-- What is shown of a visit and of a run: files stay whole, nothing is lost, and the mails in
question are covered. -/
structure Advances (rendering : Rendering) (mailbox : Mailbox) (mails : List (FolderInfo × Mail))
    (before after : Export) : Prop where
  sound : Sound rendering mailbox after.files
  grows : Grows before after
  covered : ∀ folder mail elementId, (folder, mail) ∈ mails → mail.elementId = some elementId →
    Covered rendering mailbox after.files after.stats.errors folder mail elementId

theorem advances_visit (regular : Regular rendering mailbox) (listed : folder ∈ mailbox.folders)
    (inFolder : mail ∈ mailbox.mails folder) (sound : Sound rendering mailbox state.files)
    (untroubled : Untroubled rendering mailbox attempt folder state mail) :
    Advances rendering mailbox [(folder, mail)] state (visit rendering mailbox attempt folder state mail) ∧
      SkipsWhole rendering mailbox folder state mail := by
  cases identified : mail.elementId with
  | none => exact absurd identified (regular.identified folder listed mail inFolder)
  | some elementId =>
    have entry : Entry mailbox folder mail elementId := ⟨listed, inFolder, identified⟩
    have skips : SkipsWhole rendering mailbox folder state mail := by
      intro other isOther present
      obtain ⟨contents, held⟩ := Option.isSome_iff_exists.mp present
      rw [Whole, held, sound folder mail other ⟨listed, inFolder, isOther⟩ contents held]
    refine ⟨?_, skips⟩
    have only : ∀ {after : Export}, Covered rendering mailbox after.files after.stats.errors folder mail
        elementId → ∀ folder' mail' elementId', (folder', mail') ∈ [(folder, mail)] →
        mail'.elementId = some elementId' →
        Covered rendering mailbox after.files after.stats.errors folder' mail' elementId' := by
      intro after covered folder' mail' elementId' mem isMail
      obtain ⟨rfl, rfl⟩ := Prod.mk.inj (List.mem_singleton.mp mem)
      rw [← Option.some.inj (identified.symm.trans isMail)]
      exact covered
    cases present : state.files.get? (mailPath folder mail elementId) with
    | none =>
      have visited := visited_of_absent identified present untroubled
      exact ⟨visited.sound regular entry sound, visited.grows present, only visited.settles⟩
    | some contents =>
      have hasFile : (state.files.get? (mailPath folder mail elementId)).isSome = true := by
        rw [present]
        rfl
      have skipped : visit rendering mailbox attempt folder state mail =
          { state with
            visited := state.visited + 1
            stats := { state.stats with skipped := state.stats.skipped + 1 } } := by
        simp only [visit, identified]
        exact if_pos hasFile
      rw [skipped]
      exact ⟨sound, ⟨fun _ _ held => held, fun _ mem => mem⟩,
        only (.inl (skips elementId identified hasFile))⟩

/-! ## A run -/

theorem Advances.refl (sound : Sound rendering mailbox state.files) : Advances rendering mailbox [] state state :=
  ⟨sound, .refl state, fun _ _ _ mem => by cases mem⟩

theorem Advances.trans {before middle after : Export} {first second : List (FolderInfo × Mail)}
    (early : Advances rendering mailbox first before middle)
    (late : Advances rendering mailbox second middle after)
    (listed : ∀ pair ∈ first, pair.1 ∈ mailbox.folders ∧ pair.2 ∈ mailbox.mails pair.1) :
    Advances rendering mailbox (first ++ second) before after where
  sound := late.sound
  grows := early.grows.trans late.grows
  covered folder mail elementId mem identified := by
    obtain isEarly | isLate := List.mem_append.mp mem
    · obtain ⟨isListed, inFolder⟩ := listed _ isEarly
      exact (early.covered folder mail elementId isEarly identified).grows late.grows late.sound
        ⟨isListed, inFolder, identified⟩
    · exact late.covered folder mail elementId isLate identified

/-- The loop over the mails of a folder. -/
theorem advances_mails (regular : Regular rendering mailbox) (listed : folder ∈ mailbox.folders)
    {mails : List Mail} (inFolder : ∀ mail ∈ mails, mail ∈ mailbox.mails folder)
    (sound : Sound rendering mailbox state.files) (untroubled : Guarded (visit rendering mailbox attempt folder)
      (Untroubled rendering mailbox attempt folder) state mails) :
    Advances rendering mailbox (mails.map fun mail => (folder, mail)) state
        (mails.foldl (visit rendering mailbox attempt folder) state) ∧
      Guarded (visit rendering mailbox attempt folder) (SkipsWhole rendering mailbox folder) state mails := by
  induction mails generalizing state with
  | nil => exact ⟨.refl sound, trivial⟩
  | cons mail rest ih =>
    obtain ⟨isMail, areMails⟩ := List.forall_mem_cons.mp inFolder
    obtain ⟨here, skips⟩ := advances_visit regular listed isMail sound untroubled.1
    obtain ⟨later, skipsLater⟩ := ih areMails here.sound untroubled.2
    refine ⟨here.trans later fun pair mem => ?_, skips, skipsLater⟩
    rw [List.mem_singleton.mp mem]
    exact ⟨listed, isMail⟩

/-- The mails of some folders. -/
def listing (mailbox : Mailbox) (folders : List FolderInfo) : List (FolderInfo × Mail) :=
  folders.flatMap fun folder => (mailbox.mails folder).map fun mail => (folder, mail)

/-- The loop over the folders: a fatal error ends it with every file whole. -/
theorem advances_folders (regular : Regular rendering mailbox) {folders : List FolderInfo}
    (listed : ∀ folder ∈ folders, folder ∈ mailbox.folders) (sound : Sound rendering mailbox state.files)
    (untroubled : Throughout rendering mailbox attempt (Untroubled rendering mailbox attempt) folders state) :
    Throughout rendering mailbox attempt (SkipsWhole rendering mailbox) folders state ∧
      Sound rendering mailbox (exportFolders rendering mailbox attempt folders state).2 ∧
      ∀ stats, (exportFolders rendering mailbox attempt folders state).1 = .ok stats → ∃ after, after.stats = stats ∧
          after.files = (exportFolders rendering mailbox attempt folders state).2 ∧
          Advances rendering mailbox (listing mailbox folders) state after := by
  induction folders generalizing state with
  | nil =>
    refine ⟨trivial, sound, fun stats done => ⟨state, Except.ok.inj done, rfl, .refl sound⟩⟩
  | cons folder rest ih =>
    obtain ⟨isListed, areListed⟩ := List.forall_mem_cons.mp listed
    rw [Throughout] at untroubled ⊢
    rw [exportFolders]
    cases fatal : attempt.fatal state.stats.folders with
    | some error => exact ⟨trivial, sound, fun stats done => by cases done⟩
    | none =>
      rw [fatal] at untroubled
      have entered : Sound rendering mailbox ({ state with
          stats := { state.stats with folders := state.stats.folders + 1 } } : Export).files := sound
      obtain ⟨inside, skips⟩ := advances_mails regular isListed (fun _ mem => mem) entered untroubled.1
      have here : Advances rendering mailbox ((mailbox.mails folder).map fun mail => (folder, mail))
          state (visitFolder rendering mailbox attempt folder state) :=
        ⟨inside.sound, ⟨inside.grows.files, inside.grows.errors⟩, inside.covered⟩
      obtain ⟨skipsLater, soundLater, later⟩ := ih areListed here.sound untroubled.2
      refine ⟨⟨skips, skipsLater⟩, soundLater, fun stats done => ?_⟩
      obtain ⟨after, sameStats, sameFiles, advances⟩ := later stats done
      refine ⟨after, sameStats, sameFiles, here.trans advances fun pair mem => ?_⟩
      obtain ⟨mail, inFolder, rfl⟩ := List.mem_map.mp mem
      exact ⟨isListed, inFolder⟩

/-! ## Run after run -/

/-- Every visit of a run, which begins with some files, leaves no file or the whole message. -/
def RunUntroubled (rendering : Rendering) (mailbox : Mailbox) (files : Dict Path (List UInt8))
    (attempt : Attempt) : Prop :=
  Throughout rendering mailbox attempt (Untroubled rendering mailbox attempt) mailbox.folders (begin files)

/-- What a run is to achieve: a mail that is skipped has its whole message, and after the run
each mail has its whole message or is reported and will be tried again. -/
structure Complete (rendering : Rendering) (mailbox : Mailbox) (files : Dict Path (List UInt8))
    (attempt : Attempt) : Prop where
  skips : Throughout rendering mailbox attempt (SkipsWhole rendering mailbox) mailbox.folders (begin files)
  covers : ∀ stats, (exportEml rendering mailbox attempt files).1 = .ok stats →
    ∀ folder mail elementId, Entry mailbox folder mail elementId →
      Covered rendering mailbox (exportEml rendering mailbox attempt files).2 stats.errors folder mail
        elementId

theorem complete_of_sound (regular : Regular rendering mailbox) {files : Dict Path (List UInt8)}
    (sound : Sound rendering mailbox files) (untroubled : RunUntroubled rendering mailbox files attempt) :
    Complete rendering mailbox files attempt ∧
      Sound rendering mailbox (exportEml rendering mailbox attempt files).2 := by
  have startSound : Sound rendering mailbox (begin files).files := sound
  obtain ⟨skips, soundAfter, done⟩ := advances_folders regular (fun _ listed => listed) startSound untroubled
  refine ⟨⟨skips, fun stats isDone folder mail elementId entry => ?_⟩, soundAfter⟩
  obtain ⟨after, sameStats, sameFiles, advances⟩ := done stats isDone
  rw [← sameStats]
  show Covered rendering mailbox
    (exportFolders rendering mailbox attempt mailbox.folders (begin files)).2 after.stats.errors folder
    mail elementId
  rw [← sameFiles]
  refine advances.covered folder mail elementId (List.mem_flatMap.mpr ⟨folder, entry.folderListed, ?_⟩)
    entry.identified
  exact List.mem_map.mpr ⟨mail, entry.mailListed, rfl⟩

/-- A rendering of the subject and the body. -/
def plainRendering : Rendering where
  mailToRfc2822 mail details _ :=
    mail.subject ++ "\r\n\r\n" ++ (details.map MailDetails.bodyHtml).getD "(No body available)"
  stripHtml := id
  extractBodyText := id

/-- A mailbox with one mail. -/
def oneMail : Mailbox where
  folders := [sampleFolder "INBOX" "entries"]
  mails _ := [sampleMail "m"]
  details _ := some { body := ⟨some "Hello", none⟩ }
  files _ := []

theorem oneMail_regular : Regular plainRendering oneMail where
  identified folder _ mail inFolder := by
    rw [List.mem_singleton.mp inFolder]
    exact Option.some_ne_none _
  apart folder mail elementId folder' mail' elementId' entry entry' _ := by
    rw [List.mem_singleton.mp entry.mailListed, List.mem_singleton.mp entry'.mailListed]

/-- A run without a cache that meets the same faults at every mail. -/
def faulty (faults : MailFaults) : Attempt := ⟨fun _ => none, fun _ => faults, fun _ => none⟩

end TutaBridge.Backup
