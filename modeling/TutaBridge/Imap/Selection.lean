import TutaBridge.Imap.ClientMirror
import TutaBridge.Std.Guarded

/-!
# One selection of a mailbox

A session from SELECT to the next: the client's commands, the checks while it
idles, and whatever the other tasks do to the stores in between. `expunged`
records the UIDs the client was told are gone. EXPUNGE and MOVE take a message
out of the view only; the folder keeps it until the server's event arrives, and a
check that refreshes the view before that brings it back.
-/

namespace TutaBridge.Imap

open TutaBridge.Std Tuta Store Bridge Events

variable {session : ImapSession} (gone : CachedMail → Bool) (reread : MailStore)

/-- The UIDs a client was told are gone, by the numbers it was told. -/
def reported : List Response → List Nat → List Nat
  | [], _ => []
  | .expunge seq :: rest, uids => uids[seq - 1]?.toList ++ reported rest (uids.eraseIdx (seq - 1))
  | _ :: rest, uids => reported rest uids

/-- A session with what it has told the client. -/
structure Selection where
  session : ImapSession
  world : World
  expunged : List Nat

/-- What happens during a selection. The store may change between the two reads
of a check. -/
inductive SelectionEvent where
  | command (command : Command)
  | checkNewMail (meanwhile : MailStore)
  | otherTasks (world : World)

namespace ImapSession

/-- The command begins a selection anew or ends it. -/
def reselects (command : Command) (session : ImapSession) (world : World) : Bool :=
  match command with
  | .select mailbox =>
    session.idleTag.isNone && session.state ≠ .notAuthenticated &&
      (folderByImapPath world.store mailbox).isSome
  | .close => session.idleTag.isNone
  | _ => false

/-- The messages the command takes out of the view, when it is EXPUNGE or MOVE
and the server accepts. -/
def removes (server : Server) (command : Command) (session : ImapSession) (world : World) :
    Option (CachedMail → Bool) :=
  if session.idleTag.isSome ∨ session.state ≠ .selected then none
  else
    match command with
    | .expunge =>
      if (perform server session.expungeRequest world).1.isOk then some CachedMail.deleted else none
    | .move set uidMode mailbox =>
      match folderByImapPath world.store mailbox with
      | none => none
      | some target =>
        let ids := session.idsAt (session.picked set uidMode)
        if ids.isEmpty then none
        else if (perform server (some (.moveMails ids target)) world).1.isOk then
          some (isMoved (ids.map IdTuple.elementId))
        else none
    | _ => none

end ImapSession

/-- One event. A check happens only while the client idles. -/
def selectionStep (env : Env) (server : Server) (selection : Selection) : SelectionEvent → Selection
  | .command command =>
    let done := selection.session.handleCommand env server command selection.world
    ⟨done.2.1, done.2.2,
      if selection.session.reselects command selection.world then []
      else selection.expunged ++ reported done.1.responses selection.session.uids⟩
  | .checkNewMail meanwhile =>
    if selection.session.idleTag.isSome then
      let done := selection.session.checkNewMail selection.world.store meanwhile
      ⟨done.2, { selection.world with store := meanwhile },
        selection.expunged ++ reported done.1 selection.session.uids⟩
    else selection
  | .otherTasks world => { selection with world := world }

/-- No UID the client was told is gone is in the view. -/
def Selection.StaysExpunged (selection : Selection) : Prop :=
  ∀ uid ∈ selection.expunged, uid ∉ selection.session.uids

/-! ## What the commands do to the view -/

section Reports

/-- Messages taken out in one pass are reported each under its own UID. -/
theorem reported_expungeWhere (front : List Nat) (list : List CachedMail)
    (later : List Response) : reported ((ImapSession.expungeWhere gone (front.length + 1) list).1 ++ later)
        (front ++ list.map CachedMail.uid) =
      (list.filter gone).map CachedMail.uid ++
        reported later (front ++ (list.filter fun cached => !gone cached).map CachedMail.uid) := by
  induction list generalizing front with
  | nil => rfl
  | cons cached rest ih =>
    rw [ImapSession.expungeWhere]
    split
    next isGone =>
      simp only [List.cons_append, reported, Nat.add_sub_cancel]
      rw [List.map_cons, List.getElem?_append_right le_rfl, Nat.sub_self,
        List.eraseIdx_append_of_length_le le_rfl, Nat.sub_self, List.eraseIdx_cons_zero,
        ih]
      simp [isGone]
    next stays =>
      have kept := ih (front ++ [cached.uid])
      rw [List.length_append, List.length_singleton] at kept
      simp only [List.append_assoc, List.singleton_append] at kept
      rw [List.map_cons]
      simpa [stays] using kept

theorem expungeWhere_kept (seq : Nat) (list : List CachedMail) :
    (ImapSession.expungeWhere gone seq list).2 = list.filter fun cached => !gone cached := by
  induction list generalizing seq with
  | nil => rfl
  | cons cached rest ih =>
    rw [ImapSession.expungeWhere]
    split
    next isGone => simp [ih, isGone]
    next stays => simp [ih, stays]

/-- Responses without an EXPUNGE report nothing. -/
theorem reported_eq_nil {responses : List Response} (uids : List Nat)
    (quiet : ∀ seq, .expunge seq ∉ responses) : reported responses uids = [] := by
  induction responses with
  | nil => rfl
  | cons response rest ih =>
    have later : ∀ seq, .expunge seq ∉ rest := fun seq mem =>
      quiet seq (List.mem_cons_of_mem _ mem)
    cases response with
    | expunge seq => exact absurd List.mem_cons_self (quiet seq)
    | _ => exact ih later

/-- EXPUNGEs from the last to the first report the messages that are gone. -/
theorem reported_positions (front : List Nat) (list : List CachedMail)
    (later : List Response) : reported (((positions gone (front.length + 1) list).reverse.map .expunge) ++ later)
        (front ++ list.map CachedMail.uid) =
      ((list.filter gone).map CachedMail.uid).reverse ++
        reported later (front ++ (list.filter fun cached => !gone cached).map CachedMail.uid) := by
  induction list generalizing front later with
  | nil => rfl
  | cons cached rest ih =>
    have behind := ih (front ++ [cached.uid])
    simp only [List.length_append, List.length_singleton, List.append_assoc, List.singleton_append] at behind
    rw [positions, List.map_cons]
    split
    next isGone =>
      rw [List.reverse_cons, List.map_append, List.append_assoc, List.map_singleton,
        List.singleton_append, behind]
      simp only [reported, Nat.add_sub_cancel]
      rw [List.getElem?_append_right le_rfl, Nat.sub_self, List.getElem?_cons_zero,
        List.eraseIdx_append_of_length_le le_rfl, Nat.sub_self, List.eraseIdx_cons_zero]
      simp [isGone]
    next stays =>
      rw [behind]
      simp [stays]

end Reports

section Commands

variable {env : Env} {server : Server}

theorem uids_modifyAt (index : Nat) {change : CachedMail → CachedMail}
    (keeps : ∀ cached, (change cached).uid = cached.uid) (session : ImapSession) :
    (session.modifyAt index change).uids = session.uids := by
  rw [ImapSession.modifyAt, ImapSession.uids, ImapSession.uids]
  refine List.ext_getElem? fun place => ?_
  rw [List.getElem?_map, List.getElem?_modify, List.getElem?_map]
  cases session.mails[place]? with
  | none => rfl
  | some cached =>
    by_cases here : index = place
    · simp [here, keeps]
    · simp [here]

theorem uids_foldl_modifyAt (indices : List Nat) {change : CachedMail → CachedMail}
    (keeps : ∀ cached, (change cached).uid = cached.uid) (session : ImapSession) :
    (indices.foldl (fun session index => session.modifyAt index change) session).uids = session.uids := by
  induction indices generalizing session with
  | nil => rfl
  | cons index rest ih =>
    rw [List.foldl_cons, ih, uids_modifyAt index keeps]

/-- A FETCH keeps the UIDs of the view and expunges nothing. -/
theorem fetchBodies_spec (indices : List Nat) {responses : List Response}
    (quiet : ∀ seq, .expunge seq ∉ responses) (session : ImapSession) (world : World) :
    (session.fetchBodies env indices responses world).2.1.uids = session.uids ∧
      ∀ seq, .expunge seq ∉ (session.fetchBodies env indices responses world).1 := by
  have loads : ∀ cached : CachedMail, ({ cached with bodyLoaded := true } : CachedMail).uid =
      cached.uid := fun _ => rfl
  induction indices generalizing responses session world with
  | nil => exact ⟨rfl, by simpa [ImapSession.fetchBodies] using quiet⟩
  | cons index rest ih =>
    have quietWith : ∀ body, ∀ seq, Response.expunge seq ∉ responses ++ [.fetch (index + 1) body] := by
      simpa using quiet
    rw [ImapSession.fetchBodies]
    split
    next cached folder found selected =>
      split
      next elementId named =>
        dsimp only
        split
        next failed => exact ⟨rfl, by simp⟩
        next body answered =>
          rw [← uids_modifyAt index loads session]
          exact ih (quietWith body) _ _
      next unnamed =>
        split
        next loaded => exact ih (quietWith none) session world
        next missing =>
          dsimp only
          split
          next fetched =>
            rw [← uids_modifyAt index loads session]
            exact ih (quietWith none) _ _
          next failed => exact ⟨rfl, by simp⟩
    next => exact ih quiet session world

theorem cmdFetch_spec (set : Text) (uidMode needsBody : Bool) (session : ImapSession) (world : World) :
    (session.cmdFetch env set uidMode needsBody world).2.1.uids = session.uids ∧
      ∀ seq, .expunge seq ∉ (session.cmdFetch env set uidMode needsBody world).1 := by
  rw [ImapSession.cmdFetch]
  split
  · exact ⟨rfl, by simp⟩
  · split
    · exact fetchBodies_spec _ (by simp) session world
    · exact ⟨rfl, by simp⟩

theorem cmdStore_spec (set : Text) (uidMode : Bool) (change : ImapSession.FlagChange)
    (session : ImapSession) (world : World) :
    (session.cmdStore server set uidMode change world).2.1.uids = session.uids ∧
      ∀ seq, .expunge seq ∉ (session.cmdStore server set uidMode change world).1.responses := by
  have seen : ∀ indices, (session.storeSeen server indices change.adding world).2.1.uids = session.uids := by
    intro indices
    rw [ImapSession.storeSeen]
    dsimp only
    split
    all_goals
      refine uids_foldl_modifyAt indices ?_ session
      exact fun _ => rfl
  rw [ImapSession.cmdStore]
  split
  · exact ⟨rfl, by simp⟩
  · refine ⟨?_, by simp⟩
    dsimp only
    split
    · rw [uids_foldl_modifyAt]
      · split
        · exact seen _
        · rfl
      · exact fun _ => rfl
    · split
      · exact seen _
      · rfl

/-- What a command leaves and reports: without the removed messages, and these. -/
def Outcome (session : ImapSession) (removed : Option (CachedMail → Bool))
    (done : Reply × ImapSession × World) : Prop :=
  let gone := removed.getD fun _ => false
  done.2.1.uids = (session.mails.filter fun cached => !gone cached).map CachedMail.uid ∧
    reported done.1.responses session.uids = (session.mails.filter gone).map CachedMail.uid

/-- Taking messages out of the view reports exactly those. -/
theorem outcome_expungeWhere (session : ImapSession) (gone : CachedMail → Bool)
    (requests : List Request) (world : World) :
    Outcome session (some gone)
      (⟨requests, (ImapSession.expungeWhere gone 1 session.mails).1 ++ [.tagged .ok]⟩,
        { session with mails := (ImapSession.expungeWhere gone 1 session.mails).2 }, world) := by
  constructor
  · exact congrArg (List.map CachedMail.uid) (expungeWhere_kept gone 1 session.mails)
  · have report := reported_expungeWhere gone [] session.mails [.tagged .ok]
    rw [List.nil_append] at report
    exact report.trans (List.append_nil _)

/-- A command that removes nothing keeps the UIDs of the view and reports none. -/
theorem outcome_none {done : Reply × ImapSession × World}
    (same : done.2.1.uids = session.uids) (quiet : ∀ seq, .expunge seq ∉ done.1.responses) :
    Outcome session none done := by
  constructor
  · simpa [ImapSession.uids] using same
  · simpa using reported_eq_nil session.uids quiet

theorem cmdLogin_spec (password : String) (session : ImapSession) :
    (session.cmdLogin password).2.mails = session.mails ∧ ∀ seq, .expunge seq ∉ (session.cmdLogin password).1 := by
  rw [ImapSession.cmdLogin]
  split
  · exact ⟨rfl, by simp⟩
  · split <;> exact ⟨rfl, by simp⟩

/-- EXPUNGE removes the messages marked `\Deleted` once the server accepts. -/
theorem cmdExpunge_spec (session : ImapSession) (world : World) (awake : session.idleTag.isSome = false) :
    Outcome session (session.removes server .expunge world) (session.cmdExpunge server world) := by
  by_cases selected : session.state = .selected
  · rw [ImapSession.cmdExpunge, ImapSession.removes, if_neg (not_not.mpr selected),
      if_neg (by simp [awake, selected])]
    dsimp only
    cases (ImapSession.perform server session.expungeRequest world).1 with
    | error message => exact outcome_none rfl (by simp)
    | ok done => exact outcome_expungeWhere session _ _ _
  · rw [ImapSession.cmdExpunge, ImapSession.removes, if_pos selected, if_pos (.inr selected)]
    exact outcome_none rfl (by simp)

/-- MOVE removes what was moved once the server accepts. -/
theorem cmdMove_spec (set : Text) (uidMode : Bool) (mailbox : String) (session : ImapSession)
    (world : World) (awake : session.idleTag.isSome = false) :
    Outcome session (session.removes server (.move set uidMode mailbox) world)
      (session.cmdMove server set uidMode mailbox world) := by
  by_cases selected : session.state = .selected
  · rw [ImapSession.cmdMove, ImapSession.removes, if_neg (not_not.mpr selected),
      if_neg (by simp [awake, selected])]
    dsimp only
    cases folderByImapPath world.store mailbox with
    | none => exact outcome_none rfl (by simp)
    | some target =>
      dsimp only
      cases (session.idsAt (session.picked set uidMode)).isEmpty with
      | true => exact outcome_none rfl (by simp)
      | false =>
        rw [if_neg Bool.false_ne_true, if_neg Bool.false_ne_true]
        cases (ImapSession.perform server
          (some (.moveMails (session.idsAt (session.picked set uidMode)) target)) world).1 with
        | error message => exact outcome_none rfl (by simp)
        | ok done => exact outcome_expungeWhere session _ _ _
  · rw [ImapSession.cmdMove, ImapSession.removes, if_pos selected, if_pos (.inr selected)]
    exact outcome_none rfl (by simp)

/-- The commands that take messages out of the view. -/
def Command.takesOut : Command → Bool
  | .expunge | .move _ _ _ => true
  | _ => false

theorem removes_eq_none {command : Command} (keeps : command.takesOut = false) {world : World} :
    session.removes server command world = none := by
  rw [ImapSession.removes.eq_def]
  split
  · rfl
  · cases command <;> first | rfl | cases keeps

theorem isNone_of_not_isSome {tag : Option String} (awake : tag.isSome = false) : tag.isNone = true := by
  rw [← Option.not_isSome, awake]
  rfl

theorem cmdSelect_of_not_reselects {mailbox : String} {world : World}
    (awake : session.idleTag.isSome = false) (stays : session.reselects (.select mailbox) world = false) :
    session.cmdSelect mailbox world = ([.tagged .no], session) := by
  rw [ImapSession.cmdSelect]
  split
  next => rfl
  next known =>
    have missing : folderByImapPath world.store mailbox = none := by
      simpa [ImapSession.reselects, isNone_of_not_isSome awake, known] using stays
    rw [missing]

/-- The view after a command that begins no selection, and what it reports. -/
theorem handleCommand_spec (command : Command) (session : ImapSession) (world : World)
    (stays : session.reselects command world = false) : Outcome session (session.removes server command world)
      (session.handleCommand env server command world) := by
  cases idles : session.idleTag.isSome with
  | true =>
    have removesNone : session.removes server command world = none := by
      simp [ImapSession.removes, idles]
    rw [removesNone, ImapSession.handleCommand.eq_def, if_pos idles]
    cases command <;> exact outcome_none rfl (by simp [ImapSession.handleIdle])
  | false =>
    rw [ImapSession.handleCommand.eq_def, idles, if_neg Bool.false_ne_true]
    cases command with
    | expunge => exact cmdExpunge_spec session world idles
    | move set uidMode mailbox => exact cmdMove_spec set uidMode mailbox session world idles
    | close =>
      rw [ImapSession.reselects, isNone_of_not_isSome idles] at stays
      cases stays
    | select mailbox =>
      rw [removes_eq_none rfl]
      dsimp only
      rw [cmdSelect_of_not_reselects idles stays]
      exact outcome_none rfl (by simp)
    | login password =>
      obtain ⟨same, quiet⟩ := cmdLogin_spec password session
      rw [removes_eq_none rfl]
      exact outcome_none (congrArg (List.map CachedMail.uid) same) quiet
    | fetch set uidMode needsBody =>
      obtain ⟨same, quiet⟩ := @cmdFetch_spec env set uidMode needsBody session world
      rw [removes_eq_none rfl]
      exact outcome_none same quiet
    | store set uidMode change =>
      obtain ⟨same, quiet⟩ := @cmdStore_spec server set uidMode change session world
      rw [removes_eq_none rfl]
      exact outcome_none same quiet
    | _ =>
      rw [removes_eq_none rfl]
      exact outcome_none rfl (by simp)

end Commands

/-! ## An expunged UID stays expunged -/

/-- The folder a check refreshes the view from: the selected one, when its content
has changed. -/
def ImapSession.changedFolder (session : ImapSession) (read : MailStore) : Option FolderInfo :=
  session.selectedFolder.filter fun folder =>
    ImapSession.changed session.mails (read.getFolder folder.id)

/-- What has to hold before an event: a check that finds a change finds no mail
under a UID the client was told is gone, or is being told, and an EXPUNGE or MOVE
does not take one of two messages that share a UID. -/
def Selection.Timely (server : Server) (selection : Selection) : SelectionEvent → Prop
  | .command command =>
    ∀ gone ∈ selection.session.removes server command selection.world,
      ∀ kept ∈ selection.session.mails, gone kept = false →
        ∀ taken ∈ selection.session.mails, gone taken = true → kept.uid ≠ taken.uid
  | .checkNewMail meanwhile =>
    selection.session.idleTag.isSome = true →
      ∀ folder ∈ selection.session.changedFolder selection.world.store,
        ∀ stored ∈ meanwhile.getFolder folder.id, stored.uid ∉ selection.expunged ∧
          ∀ old ∈ selection.session.mails,
            isGone ((selection.world.store.getFolder folder.id).filterMap StoredMail.elementId) old =
              true → stored.uid ≠ old.uid
  | .otherTasks _ => True

section Runs

variable {env : Env} {server : Server}

theorem checkNewMail_unchanged {read : MailStore}
    (same : session.changedFolder read = none) : session.checkNewMail read reread = ([], session) := by
  rw [ImapSession.checkNewMail]
  cases selected : session.selectedFolder with
  | none => rfl
  | some folder =>
    rw [ImapSession.changedFolder, selected, Option.filter_eq_none_iff] at same
    dsimp only
    rw [if_neg (same folder rfl)]

theorem checkNewMail_changed {read : MailStore} {folder : FolderInfo}
    (change : session.changedFolder read = some folder) : session.checkNewMail read reread =
      (((ImapSession.departed ((read.getFolder folder.id).filterMap StoredMail.elementId) 1
          session.mails).insertionSort (· ≥ ·)).map .expunge ++
            [.exist (session.refreshMails folder.id reread).mails.length],
        session.refreshMails folder.id reread) := by
  obtain ⟨selected, differs⟩ := Option.filter_eq_some_iff.mp change
  rw [ImapSession.checkNewMail, selected]
  dsimp only
  rw [if_pos differs]

/-- A check reports the messages the folder no longer has. -/
theorem mem_reported_checkNewMail {read : MailStore} {folder : FolderInfo}
    (change : session.changedFolder read = some folder) (uid : Nat) :
    uid ∈ reported (session.checkNewMail read reread).1 session.uids ↔ ∃ old ∈ session.mails,
        isGone ((read.getFolder folder.id).filterMap StoredMail.elementId) old = true ∧ old.uid = uid := by
  have report := reported_positions
    (isGone ((read.getFolder folder.id).filterMap StoredMail.elementId)) [] session.mails
    [.exist (session.refreshMails folder.id reread).mails.length]
  change reported ((positions _ 1 session.mails).reverse.map .expunge ++ _) session.uids = _ at report
  rw [checkNewMail_changed reread change, departed_eq_positions,
    insertionSort_ge_eq_reverse (positions_ascending _ 1 session.mails)]
  dsimp only
  rw [report]
  simp [reported, and_assoc]

theorem mem_uids_refreshMails (folderId : String) (store : MailStore) (session : ImapSession) (uid : Nat) :
    uid ∈ (session.refreshMails folderId store).uids ↔ ∃ stored ∈ store.getFolder folderId, stored.uid = uid := by
  simp [ImapSession.uids, ImapSession.refreshMails, ImapSession.byUid, ImapSession.cache]

/-- An event keeps the expunged UIDs out of the view exactly when it is timely. -/
theorem staysExpunged_step_iff (selection : Selection) (event : SelectionEvent) (holds : selection.StaysExpunged) :
    (selectionStep env server selection event).StaysExpunged ↔ selection.Timely server event := by
  cases event with
  | otherTasks world => exact iff_of_true holds trivial
  | command command =>
    rw [selectionStep, Selection.StaysExpunged]
    dsimp only
    cases anew : selection.session.reselects command selection.world with
    | true =>
      have removesNone : selection.session.removes server command selection.world = none := by
        cases command <;> first | exact removes_eq_none rfl | cases anew
      simp [Selection.Timely, removesNone]
    | false =>
      obtain ⟨kept, reports⟩ := @handleCommand_spec env server command selection.session selection.world anew
      rw [kept, if_neg Bool.false_ne_true, reports]
      simp only [List.mem_append, List.mem_map, List.mem_filter, Bool.not_eq_true']
      constructor
      · rintro stays gone isRemoved kept keptIn keptStays taken takenIn takenGone same
        rw [Option.mem_def.mp isRemoved] at stays
        exact stays taken.uid (.inr ⟨taken, ⟨takenIn, takenGone⟩, rfl⟩) ⟨kept, ⟨keptIn, keptStays⟩, same⟩
      · rintro timely uid (earlier | ⟨taken, ⟨takenIn, takenGone⟩, rfl⟩) ⟨kept, ⟨keptIn, keptStays⟩, same⟩
        · exact holds uid earlier (List.mem_map.mpr ⟨kept, keptIn, same⟩)
        · cases removed : selection.session.removes server command selection.world with
          | none =>
            rw [removed] at takenGone
            cases takenGone
          | some gone =>
            rw [removed] at takenGone keptStays
            exact timely gone removed kept keptIn keptStays taken takenIn takenGone same
  | checkNewMail meanwhile =>
    rw [selectionStep]
    cases idles : selection.session.idleTag.isSome with
    | false => simpa [Selection.Timely, idles] using holds
    | true =>
      rw [if_pos rfl]
      dsimp only
      cases change : selection.session.changedFolder selection.world.store with
      | none =>
        rw [checkNewMail_unchanged meanwhile change]
        simpa [Selection.StaysExpunged, reported, Selection.Timely, change] using holds
      | some folder =>
        have reports := mem_reported_checkNewMail meanwhile change
        have view : (selection.session.checkNewMail selection.world.store meanwhile).2 =
            selection.session.refreshMails folder.id meanwhile := by
          rw [checkNewMail_changed meanwhile change]
        simp only [Selection.StaysExpunged, view, List.mem_append, reports, mem_uids_refreshMails]
        constructor
        · intro stays _ other sameFolder stored inFolder
          obtain rfl : folder = other := Option.some.inj (change.symm.trans sameFolder)
          refine ⟨fun earlier => stays stored.uid (.inl earlier) ⟨stored, inFolder, rfl⟩, ?_⟩
          intro old inView gone same
          exact stays stored.uid (.inr ⟨old, inView, gone, same.symm⟩) ⟨stored, inFolder, rfl⟩
        · rintro timely uid (earlier | ⟨old, inView, gone, rfl⟩) ⟨stored, inFolder, same⟩
          · exact (timely idles folder change stored inFolder).1 (same ▸ earlier)
          · exact (timely idles folder change stored inFolder).2 old inView gone same

/-- Along a selection no UID the client was told is gone comes back exactly when
every event of it is timely. -/
theorem staysExpunged_iff_timely (session : ImapSession) (world : World) (events : List SelectionEvent) :
    (∀ first, first <+: events → (first.foldl (selectionStep env server) ⟨session, world, []⟩).StaysExpunged) ↔
      Guarded (selectionStep env server) (Selection.Timely server) ⟨session, world, []⟩ events :=
  Guarded.iff_forall_prefix Selection.StaysExpunged staysExpunged_step_iff (by nofun) events

end Runs

/-- The server accepts everything. -/
def acceptingServer : Server := fun _ _ => .ok ()

/-- The inbox of the sample session, before a second mail arrives and after. -/
def inboxWorld (mails : List StoredMail) : World := sampleWorld [] [("inbox", mails)]

/-- The client expunges a message and idles. A second mail arrives before the
event for the first, and the check that announces it shows the first again. -/
def expungeThenArrival : List SelectionEvent :=
  [.command (.store ['1'] false ⟨true, false, false, true⟩), .command .expunge, .command (.idle "a1"),
    .otherTasks (inboxWorld [sampleStored "mail1" 1, sampleStored "mail2" 2]),
    .checkNewMail (inboxOf [sampleStored "mail1" 1, sampleStored "mail2" 2])]

theorem expungeThenArrival_returns :
    let after := expungeThenArrival.foldl (selectionStep (quietEnv (offlineBackend [])) acceptingServer)
      ⟨inboxSession [sampleCached "mail1" 1 false], inboxWorld [sampleStored "mail1" 1], []⟩
    1 ∈ after.expunged ∧ 1 ∈ after.session.uids := by
  decide +kernel

/-! ## Marks survive a check -/

/-- The messages of both views have the same `\Deleted` flag. -/
def FlagsKept (before after : List CachedMail) : Prop :=
  ∀ old ∈ before, ∀ new ∈ after, new.uid = old.uid → new.deleted = old.deleted

/-- The ids a request is about. -/
def Request.ids : Request → List IdTuple
  | .trashMails ids | .deleteMails ids _ | .moveMails ids _ | .setUnreadStatus ids _ => ids

/-- The request passes exactly the messages that were marked before and are still
in the view. -/
def PassesMarked (before after : List CachedMail) (requests : List Request) : Prop :=
  ∀ id, id ∈ requests.flatMap Request.ids ↔
    ∃ old ∈ before, old.deleted = true ∧ old.mail.id = some id ∧ ∃ new ∈ after, new.uid = old.uid

section Marks

variable {server : Server}

/-- An EXPUNGE asks for the ids of the marked messages. -/
theorem ids_cmdExpunge (selected : session.state = .selected) (world : World) :
    (session.cmdExpunge server world).1.requests.flatMap Request.ids = session.deletedIds := by
  have asked : session.expungeRequest.toList.flatMap Request.ids = session.deletedIds := by
    rw [ImapSession.expungeRequest]
    split
    next isEmpty => simpa using (List.isEmpty_iff.mp isEmpty).symm
    next =>
      split
      · split <;> simp [Request.ids]
      · simp [Request.ids]
  rw [ImapSession.cmdExpunge, if_neg (not_not.mpr selected)]
  dsimp only
  split <;> exact asked

theorem state_checkNewMail (session : ImapSession) (read reread : MailStore) :
    (session.checkNewMail read reread).2.state = session.state := by
  cases change : session.changedFolder read with
  | none => rw [checkNewMail_unchanged reread change]
  | some folder =>
    rw [checkNewMail_changed reread change]
    rfl

/-- A refreshed view has no message marked. -/
theorem deleted_refreshMails {folderId : String} {store : MailStore}
    {cached : CachedMail} (mem : cached ∈ (session.refreshMails folderId store).mails) : cached.deleted = false := by
  obtain ⟨stored, -, rfl⟩ := List.mem_map.mp mem
  rfl

/-- When the marks are not lost: nothing is refreshed and no two messages of one
UID differ in their mark, or the refreshed folder has no mail under the UID of a
marked message. -/
def ImapSession.MarksSafe (session : ImapSession) (read reread : MailStore) : Prop :=
  match session.changedFolder read with
  | none => ∀ first ∈ session.mails, ∀ second ∈ session.mails, second.uid = first.uid →
      second.deleted = first.deleted
  | some folder => ∀ old ∈ session.mails, old.deleted = true →
      ∀ stored ∈ reread.getFolder folder.id, stored.uid ≠ old.uid

/-- A check keeps every mark, and the EXPUNGE after it passes the marked messages
that still exist, exactly when the marks are safe from the refresh. -/
theorem checkNewMail_keeps_marks_iff (session : ImapSession) (read reread : MailStore) (world : World) :
    (FlagsKept session.mails (session.checkNewMail read reread).2.mails ∧ (session.state = .selected →
        PassesMarked session.mails (session.checkNewMail read reread).2.mails
          ((session.checkNewMail read reread).2.cmdExpunge server world).1.requests)) ↔
      session.MarksSafe read reread := by
  have passed : session.state = .selected →
      ((session.checkNewMail read reread).2.cmdExpunge server world).1.requests.flatMap Request.ids =
        (session.checkNewMail read reread).2.deletedIds := fun selected =>
    ids_cmdExpunge ((state_checkNewMail session read reread).trans selected) world
  rw [ImapSession.MarksSafe]
  cases change : session.changedFolder read with
  | none =>
    rw [checkNewMail_unchanged reread change] at passed ⊢
    refine ⟨fun kept => kept.1, fun agree => ⟨agree, fun selected id => ?_⟩⟩
    rw [passed selected, ImapSession.deletedIds]
    simp only [List.mem_filterMap, List.mem_filter]
    constructor
    · rintro ⟨old, ⟨mem, marked⟩, named⟩
      exact ⟨old, mem, marked, named, old, mem, rfl⟩
    · rintro ⟨old, mem, marked, named, -⟩
      exact ⟨old, ⟨mem, marked⟩, named⟩
  | some folder =>
    have view : (session.checkNewMail read reread).2 = session.refreshMails folder.id reread := by
      rw [checkNewMail_changed reread change]
    rw [view] at passed ⊢
    have unmarked : (session.refreshMails folder.id reread).deletedIds = [] := by
      rw [ImapSession.deletedIds, List.filterMap_eq_nil_iff]
      intro cached mem
      obtain ⟨inNew, marked⟩ := List.mem_filter.mp mem
      rw [deleted_refreshMails inNew] at marked
      cases marked
    constructor
    · rintro ⟨kept, -⟩ old inView marked stored inFolder same
      obtain ⟨new, inNew, sameUid⟩ : ∃ new ∈ (session.refreshMails folder.id reread).mails,
          new.uid = stored.uid :=
        List.mem_map.mp ((mem_uids_refreshMails folder.id reread session _).mpr ⟨stored, inFolder, rfl⟩)
      have lost := kept old inView new inNew (sameUid.trans same)
      rw [deleted_refreshMails inNew, marked] at lost
      cases lost
    · intro safe
      have away : ∀ old ∈ session.mails, old.deleted = true →
          ∀ new ∈ (session.refreshMails folder.id reread).mails, new.uid ≠ old.uid := by
        intro old inView marked new inNew same
        obtain ⟨stored, inFolder, sameUid⟩ :=
          (mem_uids_refreshMails folder.id reread session _).mp (List.mem_map_of_mem inNew)
        exact safe old inView marked stored inFolder (sameUid.trans same)
      refine ⟨fun old inView new inNew same => ?_, fun selected id => ?_⟩
      · rw [deleted_refreshMails inNew]
        cases marked : old.deleted with
        | false => rfl
        | true => exact absurd same (away old inView marked new inNew)
      · rw [passed selected, unmarked]
        refine ⟨nofun, ?_⟩
        rintro ⟨old, inView, marked, -, new, inNew, same⟩
        exact absurd same (away old inView marked new inNew)

/-- A message is marked, another arrives, and the mark is gone: EXPUNGE then asks
the server for nothing. -/
theorem checkNewMail_drops_mark :
    let session := inboxSession [sampleCached "mail1" 1 true]
    let store := inboxOf [sampleStored "mail1" 1, sampleStored "mail2" 2]
    (session.checkNewMail store store).2.mails =
        [sampleCached "mail1" 1 false, sampleCached "mail2" 2 false] ∧
      ((session.checkNewMail store store).2.cmdExpunge acceptingServer (inboxWorld [])).1.requests = [] := by
  decide +kernel

end Marks

end TutaBridge.Imap
